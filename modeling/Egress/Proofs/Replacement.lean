import Egress.Proofs.Descriptors

/-!
Replacing the connection of a descriptor. The steps up to the one that makes the descriptor lead to
the new connection leave it alone when they fail. The one step that comes after it, the write of the
flag, does not. It cannot fail for a connection that was dialed in the same network, since the flag
of its own descriptor had to be written before.
-/

namespace Egress

namespace Network

theorem lookup_filter_self (ds : List (Descriptor × Nat)) (held : Descriptor) :
    (ds.filter (·.1 != held)).lookup held = none := by
  rw [List.lookup_eq_none_iff]
  intro p hp
  have := (List.mem_filter.1 hp).2
  simpa [bne, Bool.beq_comm] using this

theorem lookup_filter_of_ne (ds : List (Descriptor × Nat)) {held other : Descriptor}
    (h : other ≠ held) : (ds.filter (·.1 != held)).lookup other = ds.lookup other := by
  induction ds with
  | nil => rfl
  | cons p ds ih => grind

theorem socketOf?_close (n : Network) {fd other : Descriptor} (h : other ≠ fd) :
    (n.close fd).socketOf? other = n.socketOf? other := by
  rw [socketOf?, close, lookup_filter_of_ne _ h, socketOf?]

theorem socketOf?_close_self (n : Network) (fd : Descriptor) : (n.close fd).socketOf? fd = none :=
  lookup_filter_self n.descriptors fd

theorem socketAt?_close (n : Network) {fd other : Descriptor} (h : other ≠ fd) :
    (n.close fd).socketAt? other = n.socketAt? other := by
  rw [socketAt?, n.socketOf?_close h]
  rfl

theorem mem_of_socketAt? {n : Network} {fd : Descriptor} {s : Socket}
    (h : n.socketAt? fd = some s) : ∃ place, (fd, place) ∈ n.descriptors := by
  obtain ⟨place, hplace, -⟩ := Option.bind_eq_some_iff.1 h
  obtain ⟨before, after, hd, -⟩ := List.lookup_eq_some_iff.1 hplace
  exact ⟨place, by simp [hd]⟩

theorem inRange_of_socketAt? {n : Network} {fd : Descriptor} {s : Socket}
    (h : n.socketAt? fd = some s) : 0 ≤ fd ∧ fd < 1000 + n.sockets.length := by
  obtain ⟨place, hmem⟩ := mem_of_socketAt? h
  exact ⟨n.number_nonneg _ hmem, n.number_lt _ hmem⟩

/-- `m` is `n` with one more socket, to which a descriptor that was open before now leads, and no
other descriptor. -/
structure Replaced (n m : Network) (held : Descriptor) (s : Socket) : Prop where
  sockets : m.sockets = n.sockets ++ [s]
  descriptors : m.descriptors = n.descriptors.filter (·.1 != held) ++ [(held, n.sockets.length)]
  peers : m.peers = n.peers
  faults : m.faults = n.faults

namespace Replaced

variable {n m : Network} {held : Descriptor} {s : Socket}

theorem socketOf? (h : n.Replaced m held s) : m.socketOf? held = some n.sockets.length := by
  rw [Network.socketOf?, h.descriptors, List.lookup_append, lookup_filter_self]
  simp

theorem socketOf?_of_ne (h : n.Replaced m held s) {other : Descriptor} (hne : other ≠ held) :
    m.socketOf? other = n.socketOf? other := by
  rw [Network.socketOf?, h.descriptors, List.lookup_append, lookup_filter_of_ne _ hne]
  have hlast : [(held, n.sockets.length)].lookup other = none := by simp [hne]
  rw [hlast, Option.or_none, Network.socketOf?]

theorem socketAt? (h : n.Replaced m held s) : m.socketAt? held = some s := by
  simp [Network.socketAt?, h.socketOf?, h.sockets]

theorem references (h : n.Replaced m held s) {place : Nat} (hunused : n.references place = 0) :
    m.references place = if place = n.sockets.length then 1 else 0 := by
  have hkept : (n.descriptors.filter (·.1 != held)).countP (·.2 == place) = 0 :=
    Nat.eq_zero_of_le_zero (hunused ▸ List.filter_sublist.countP_le)
  rw [Network.references, h.descriptors, List.countP_append, hkept, Nat.zero_add,
    List.countP_singleton]
  simp only [beq_iff_eq, eq_comm (a := n.sockets.length)]

end Replaced

/-- `m` is `n` after a descriptor took over the connection at a place, which now is in this state,
from another descriptor, which was closed. -/
structure TakenOver (n m : Network) (held replacement : Descriptor) (place : Nat) (r : Socket) :
    Prop where
  sockets : m.sockets = n.sockets.set place r
  descriptors : m.descriptors =
    (n.descriptors.filter (·.1 != held) ++ [(held, place)]).filter (·.1 != replacement)
  peers : m.peers = n.peers
  faults : m.faults = n.faults

namespace TakenOver

variable {n m : Network} {held replacement : Descriptor} {place : Nat} {r : Socket}

theorem socketOf? (h : n.TakenOver m held replacement place r) (hne : held ≠ replacement) :
    m.socketOf? held = some place := by
  rw [Network.socketOf?, h.descriptors, lookup_filter_of_ne _ hne, List.lookup_append,
    lookup_filter_self]
  simp

theorem getElem? (h : n.TakenOver m held replacement place r) (hlt : place < n.sockets.length) :
    m.sockets[place]? = some r := by
  rw [h.sockets, List.getElem?_set_self hlt]

theorem socketAt? (h : n.TakenOver m held replacement place r) (hne : held ≠ replacement)
    (hlt : place < n.sockets.length) : m.socketAt? held = some r := by
  simp [Network.socketAt?, h.socketOf? hne, h.getElem? hlt]

theorem setSocket (h : n.TakenOver m held replacement place r) (s : Socket) :
    n.TakenOver (m.setSocket place s) held replacement place s where
  sockets := by simp [Network.setSocket, h.sockets]
  descriptors := h.descriptors
  peers := h.peers
  faults := h.faults

/-- A new socket whose own descriptor is closed is one that replaces a connection. -/
theorem replaced {k : Network} {s h : Socket} (hm : n.Opened m replacement s)
    (hheld : n.socketAt? held = some h)
    (hk : m.TakenOver k held replacement n.sockets.length r) : n.Replaced k held r where
  sockets := by simp [hk.sockets, hm.sockets]
  descriptors := by
    obtain ⟨place, hmem⟩ := mem_of_socketAt? hheld
    have hfresh : ∀ p ∈ n.descriptors, p.1 ≠ replacement :=
      fun p hp => hm.number ▸ ne_of_mem_descriptors hp
    have hne : held ≠ replacement := hfresh _ hmem
    have hkept : n.descriptors.filter (fun p => p.1 != replacement && p.1 != held) =
        n.descriptors.filter (·.1 != held) := by
      refine List.filter_congr fun p hp => ?_
      simp [hfresh p hp]
    simp [hk.descriptors, hm.descriptors, List.filter_filter, hkept, hne, hne.symm]
  peers := hk.peers.trans hm.peers
  faults := hk.faults.trans hm.faults

end TakenOver

theorem duplicate_of_fault {m : Network} {errno : Nat} (hfault : m.faults.duplicate = some errno)
    (source target : Descriptor) :
    m.duplicate source target = (.error (.numbered errno), m) := by
  simp only [duplicate, hfault]

/-- Where no fault is in the way a connection can be duplicated onto any open descriptor. -/
theorem duplicate_of_faultless {n : Network} {held replacement : Descriptor} {place : Nat}
    {r h : Socket} (hfault : n.faults.duplicate = none)
    (hplace : n.socketOf? replacement = some place) (hr : n.sockets[place]? = some r)
    (hheld : n.socketAt? held = some h) :
    ∃ k, n.duplicate replacement held = (.ok (), k) ∧
      n.TakenOver (k.close replacement) held replacement place r := by
  obtain ⟨hlt, rfl⟩ := List.getElem?_eq_some_iff.1 hr
  unfold duplicate
  split
  · rename_i errno hsome
    rw [hfault] at hsome
    contradiction
  · split
    · rename_i hnone
      rw [hplace] at hnone
      contradiction
    · rename_i index hindex
      obtain rfl := Option.some.inj (hplace.symm.trans hindex)
      rw [dif_pos (inRange_of_socketAt? hheld)]
      exact ⟨_, rfl, (List.set_getElem_self hlt).symm, rfl, rfl, rfl⟩

/-! What replacing a connection comes to, by the call at which it stops. -/

section Replace

variable {n k : Network} {held replacement : Descriptor}

theorem replace_of_unread {e : OsError} (hread : n.isNonblocking held = .error e) :
    n.replace held replacement = (.error e, n.close replacement) := by
  simp only [replace, hread]

theorem replace_of_unduplicated {flag : Bool} {errno : Nat}
    (hread : n.isNonblocking held = .ok flag) (hfault : n.faults.duplicate = some errno) :
    n.replace held replacement = (.error (.numbered errno), n.close replacement) := by
  simp only [replace, hread, duplicate_of_fault hfault]

theorem replace_of_blocking (hread : n.isNonblocking held = .ok false)
    (hrun : n.duplicate replacement held = (.ok (), k)) :
    n.replace held replacement = (.ok false, k.close replacement) := by
  simp only [replace, hread, hrun, Bool.false_eq_true, if_false]

theorem replace_of_nonblocking (hread : n.isNonblocking held = .ok true)
    (hrun : n.duplicate replacement held = (.ok (), k)) :
    n.replace held replacement =
      (((k.close replacement).setNonblocking held true).1.map fun _ => true,
        ((k.close replacement).setNonblocking held true).2) := by
  simp only [replace, hread, hrun, if_true]
  split <;> rename_i hwrite <;> rw [hwrite] <;> rfl

end Replace

/-- The flag of a non-blocking descriptor cannot be written on the connection that replaces its own,
though nothing before that fails. -/
structure FailsLate (n : Network) (held : Descriptor) (r : Socket) : Prop where
  nonblocking : n.isNonblocking held = .ok true
  blocking : r.nonblocking = false
  duplicate : n.faults.duplicate = none
  setFlag : n.faults.setFlag ≠ none

/-- The connection of a descriptor cannot be replaced: its flag cannot be read, or the new
connection cannot be duplicated. -/
def Refuses (n : Network) (held : Descriptor) (e : OsError) : Prop :=
  n.isNonblocking held = .error e ∨ ∃ errno, n.faults.duplicate = some errno ∧ e = .numbered errno

theorem FailsLate.not_refuses {n : Network} {held : Descriptor} {r : Socket}
    (h : n.FailsLate held r) (e : OsError) : ¬n.Refuses held e := by
  rintro (hread | ⟨errno, hfault, -⟩)
  · rw [h.nonblocking] at hread
    contradiction
  · rw [h.duplicate] at hfault
    contradiction

/-- Replacing is refused and changes nothing but that the replacement is closed, or the connection
is taken over and only the write of the flag can still fail. -/
theorem replace_ends {n : Network} {held replacement : Descriptor} {place : Nat} {r : Socket}
    (hplace : n.socketOf? replacement = some place) (hr : n.sockets[place]? = some r)
    (hne : held ≠ replacement) :
    (∃ e, n.replace held replacement = (.error e, n.close replacement) ∧ n.Refuses held e) ∨
    (∃ errno k, n.replace held replacement = (.error (.numbered errno), k) ∧
      n.FailsLate held r ∧ n.faults.setFlag = some errno ∧
      n.TakenOver k held replacement place r) ∨
    ∃ h k, n.replace held replacement = (.ok h.nonblocking, k) ∧ ¬n.FailsLate held r ∧
      n.socketAt? held = some h ∧
      n.TakenOver k held replacement place
        { r with nonblocking := r.nonblocking || h.nonblocking } := by
  cases hread : n.isNonblocking held with
  | error e => exact .inl ⟨e, replace_of_unread hread, .inl hread⟩
  | ok flag =>
  obtain ⟨hget, h, hheld, hflag⟩ := isNonblocking_ok hread
  cases hdup : n.faults.duplicate with
  | some errno =>
      exact .inl ⟨_, replace_of_unduplicated hread hdup, .inr ⟨errno, hdup, rfl⟩⟩
  | none =>
  have hlt := n.place_lt_of_socketOf? hplace
  obtain ⟨k, hrun, hk⟩ := duplicate_of_faultless hdup hplace hr hheld
  cases flag with
  | false =>
      refine .inr (.inr ⟨h, k.close replacement, ?_, fun hlate => ?_, hheld, ?_⟩)
      · rw [replace_of_blocking hread hrun, hflag]
      · have := hlate.nonblocking
        simp [hread] at this
      · simpa [hflag] using hk
  | true =>
      rw [replace_of_nonblocking hread hrun]
      by_cases hset : r.nonblocking = true ∨ n.faults.setFlag = none
      · rw [setNonblocking_of_faultless (hk.socketOf? hne) (hk.getElem? hlt) (hk.faults ▸ hget)
          (hk.faults ▸ hset)]
        have htaken := hk.setSocket { r with nonblocking := true }
        refine .inr (.inr ⟨h, _, by rw [hflag]; rfl, fun hlate => ?_, hheld,
          by simpa [hflag] using htaken⟩)
        rcases hset with hset | hset
        · simp [hlate.blocking] at hset
        · exact hlate.setFlag hset
      · obtain ⟨hblocking, hfault⟩ := not_or.1 hset
        obtain ⟨errno, herrno⟩ := Option.ne_none_iff_exists'.1 hfault
        have hkset : (k.close replacement).faults.getFlag.or (k.close replacement).faults.setFlag =
            some errno := by
          rw [hk.faults, hget, Option.none_or, herrno]
        rw [setNonblocking_of_fault (hk.socketAt? hne hlt) hblocking hkset]
        exact .inr (.inl ⟨errno, _, rfl, ⟨hread, by simpa using hblocking, hdup, hfault⟩, herrno,
          hk⟩)

/-- A descriptor that is to replace its own connection is closed, however that ends. -/
theorem socketOf?_replace_self (n : Network) (fd : Descriptor) :
    (n.replace fd fd).2.socketOf? fd = none := by
  cases hread : n.isNonblocking fd with
  | error e =>
      rw [replace_of_unread hread]
      exact n.socketOf?_close_self fd
  | ok flag =>
  obtain ⟨outcome, k, hrun⟩ : ∃ outcome k, n.duplicate fd fd = (outcome, k) := ⟨_, _, rfl⟩
  have hclosed : (k.close fd).socketOf? fd = none := k.socketOf?_close_self fd
  cases outcome with
  | error e =>
      simp only [replace, hread, hrun]
      exact hclosed
  | ok _ =>
      cases flag with
      | false =>
          rw [replace_of_blocking hread hrun]
          exact hclosed
      | true =>
          obtain ⟨e, hwrite⟩ := setNonblocking_of_closed hclosed true
          rw [replace_of_nonblocking hread hrun, hwrite]
          exact hclosed

/-- Replacing the connection of a descriptor is all or nothing but for two cases. A non-blocking
descriptor whose flag cannot be written in the end is left with the new connection, blocking; and
one that is to replace its own connection is closed. -/
theorem replace_all_or_nothing {n : Network} {held replacement : Descriptor} {place : Nat}
    {r : Socket} (hplace : n.socketOf? replacement = some place)
    (hr : n.sockets[place]? = some r) :
    let m := (n.replace held replacement).2
    if held = replacement then m.socketOf? held = none
    else
      (∀ e, (n.replace held replacement).1 = .error e → ¬n.FailsLate held r →
        m.socketOf? held = n.socketOf? held ∧ m.socketAt? held = n.socketAt? held) ∧
      (n.FailsLate held r → ∃ errno, n.faults.setFlag = some errno ∧
        (n.replace held replacement).1 = .error (.numbered errno) ∧
        m.socketOf? held = some place ∧ m.socketAt? held = some r) ∧
      ∀ b, (n.replace held replacement).1 = .ok b → ∃ h, n.socketAt? held = some h ∧
        b = h.nonblocking ∧ m.socketOf? held = some place ∧
        m.socketAt? held = some { r with nonblocking := r.nonblocking || b } := by
  intro m
  by_cases hne : held = replacement
  · rw [if_pos hne]
    simp only [m, ← hne]
    exact n.socketOf?_replace_self held
  rw [if_neg hne]
  have hlt := n.place_lt_of_socketOf? hplace
  rcases replace_ends hplace hr hne with
    ⟨e, hrun, hrefuses⟩ | ⟨errno, k, hrun, hlate, herrno, hk⟩ | ⟨h, k, hrun, hlate, hheld, hk⟩ <;>
    simp only [m, hrun]
  · exact ⟨fun _ _ _ => ⟨n.socketOf?_close hne, n.socketAt?_close hne⟩,
      fun hlate => absurd hrefuses (hlate.not_refuses e), nofun⟩
  · exact ⟨fun _ _ hnot => absurd hlate hnot,
      fun _ => ⟨errno, herrno, rfl, hk.socketOf? hne, hk.socketAt? hne hlt⟩, nofun⟩
  · refine ⟨nofun, fun hfails => absurd hfails hlate, fun b hb => ?_⟩
    obtain rfl := Except.ok.inj hb
    exact ⟨h, hheld, rfl, hk.socketOf? hne, hk.socketAt? hne hlt⟩

/-- A non-blocking descriptor of the caller's and a blocking connection that is to take it over. -/
def beforeReplace (faults : Faults) : Network where
  faults := faults
  sockets := [{ nonblocking := true }, { targets := [.v4 ⟨.of 203 0 113 9, 1080⟩] }]
  descriptors := [(1000, 0), (1001, 1)]
  place_lt := by decide
  number_nonneg := by decide
  number_lt := by decide

theorem replace_carries_flag :
    ((beforeReplace {}).replace 1000 1001).1 = .ok true ∧
      ((beforeReplace {}).replace 1000 1001).2.socketAt? 1000 =
        some { nonblocking := true, targets := [.v4 ⟨.of 203 0 113 9, 1080⟩] } := by
  have hends := @replace_all_or_nothing (beforeReplace {}) 1000 1001 _ _ rfl rfl
  rw [if_neg (by decide)] at hends
  obtain ⟨h, -, -, -, htaken⟩ := hends.2.2 true rfl
  exact ⟨rfl, htaken⟩

/-- A write of the flag that fails leaves an error and a descriptor that blocks on another
connection; a connection put in its own place is gone although the answer is no error. -/
theorem replace_leaves_half_done :
    let n := beforeReplace { setFlag := some 22 }
    (n.replace 1000 1001).1 = .error (.numbered 22) ∧
      n.socketOf? 1000 = some 0 ∧ n.isNonblocking 1000 = .ok true ∧
      (n.replace 1000 1001).2.socketOf? 1000 = some 1 ∧
      (n.replace 1000 1001).2.isNonblocking 1000 = .ok false ∧
      (n.replace 1001 1001).1 = .ok false ∧
      n.socketOf? 1001 = some 1 ∧ (n.replace 1001 1001).2.socketOf? 1001 = none :=
  ⟨rfl, rfl, rfl, rfl, rfl, rfl, rfl, rfl⟩

/-- Only a fault of the duplication keeps a new connection from taking a descriptor over. Its own
flag was written while dialing, so the flag of the caller's descriptor can be restored. -/
theorem replace_cases {n m : Network} {held fd : Descriptor} {h s : Socket}
    (hheld : n.socketAt? held = some h) (hm : n.Opened m fd s) (hs : s.nonblocking = false)
    (hget : n.faults.getFlag = none) (hset : n.faults.setFlag = none) :
    (∃ errno, n.faults.duplicate = some errno ∧
      (m.replace held fd).1 = .error (.numbered errno) ∧ n.Left (m.replace held fd).2 [s]) ∨
    ((m.replace held fd).1 = .ok h.nonblocking ∧
      n.Replaced (m.replace held fd).2 held { s with nonblocking := h.nonblocking }) := by
  have hmheld := hm.socketAt?_of_some hheld
  have hne : held ≠ fd := by
    obtain ⟨place, hmem⟩ := mem_of_socketAt? hheld
    exact hm.number ▸ ne_of_mem_descriptors hmem
  rcases replace_ends hm.socketOf? hm.getElem? hne with
    ⟨e, hrun, hread | ⟨errno, hdup, rfl⟩⟩ | ⟨-, -, -, hlate, -, -⟩ | ⟨h', k, hrun, -, hheld', hk⟩
  · simp only [isNonblocking, hm.faults, hget, hmheld] at hread
    contradiction
  · rw [hrun]
    exact .inl ⟨errno, hm.faults ▸ hdup, rfl, hm.close⟩
  · exact absurd (hm.faults ▸ hset) hlate.setFlag
  · obtain rfl := Option.some.inj (hmheld.symm.trans hheld')
    rw [hs, Bool.false_or] at hk
    rw [hrun]
    exact .inr ⟨rfl, hk.replaced hm hheld⟩

end Network

end Egress
