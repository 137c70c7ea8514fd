import Egress.Lookup.Cached
import Egress.Proofs.Recorded
import Egress.Proofs.Run
import Mathlib.Data.List.Dedup
import Mathlib.Data.List.Forall2
import Mathlib.Data.List.Perm.Subperm

/-!
A lookup that remembers answers, as a window on the list of everything the name service answered.
The service is asked about a name unless the last answer to it is younger than the lifetime and
fewer than 512 other names were answered since. Answers leave the queue of names in two
ways, by age and by number, but what was answered later cannot be too old first: the names answered
since stand behind a name that is still valid, all of them, in the order of their last answers.
-/

namespace Egress

/-- What a lookup makes of the service's answer. -/
def ServiceNote.outcome (n : ServiceNote) : Except ResolveError (List IpAddr) :=
  match n.answer with
  | .error failure => .error (.lookupFailed failure.message)
  | .ok [] => .error (.lookupFailed "resolver returned no addresses")
  | .ok (a :: others) => .ok (a :: others).eraseDups

namespace CachedLookup

/-- The questions that were answered with addresses, oldest first. -/
def answered (notes : List ServiceNote) : List ServiceNote := notes.filter (·.outcome.isOk)

def names (log : List ServiceNote) : List String := log.map (·.host)

/-- How many names other than this one were answered. -/
def others (host : String) (log : List ServiceNote) : Nat :=
  ((names log).filter (· ≠ host)).dedup.length

/-- This answer to a name still holds: it is younger than the lifetime, and fewer than 512 other
names were answered since. -/
def Stands (lifetime now : Nat) (host : String) (log : List ServiceNote) (q : ServiceNote) : Prop :=
  ∃ earlier later, log = earlier ++ q :: later ∧ q.host = host ∧ now < q.time + lifetime ∧
    others host later < 512

/-- This is the last answer to its name, and these came after it. -/
def Last (log : List ServiceNote) (q : ServiceNote) (later : List ServiceNote) : Prop :=
  (∃ earlier, log = earlier ++ q :: later) ∧ q.host ∉ names later

theorem Last.unique {log : List ServiceNote} {p q : ServiceNote} {since later : List ServiceNote}
    (hp : Last log p since) (hq : Last log q later) (h : p.host = q.host) :
    p = q ∧ since = later := by
  obtain ⟨⟨before, rfl⟩, hsince⟩ := hp
  obtain ⟨⟨earlier, heq⟩, hlater⟩ := hq
  rcases List.append_eq_append_iff.1 heq with ⟨as, -, has⟩ | ⟨as, -, has⟩
  · cases as with
    | nil => exact ⟨(List.cons.inj has).1, (List.cons.inj has).2⟩
    | cons a as =>
        obtain ⟨rfl, rfl⟩ := List.cons.inj has
        exact absurd (by simp [names, h]) hsince
  · cases as with
    | nil => exact ⟨(List.cons.inj has).1.symm, (List.cons.inj has).2.symm⟩
    | cons a as =>
        obtain ⟨rfl, rfl⟩ := List.cons.inj has
        exact absurd (by simp [names, h]) hlater

/-- No answer to a name is younger than the last one. -/
theorem Last.time_le {log : List ServiceNote} {p r : ServiceNote} {since : List ServiceNote}
    (htimes : log.Pairwise (·.time ≤ ·.time)) (hp : Last log p since) (hr : r ∈ log)
    (h : r.host = p.host) : r.time ≤ p.time := by
  obtain ⟨⟨before, rfl⟩, hsince⟩ := hp
  rw [List.pairwise_append] at htimes
  rcases List.mem_append.1 hr with hr | hr
  · exact htimes.2.2 r hr p List.mem_cons_self
  · cases hr with
    | head => exact Nat.le_refl _
    | tail _ hr => exact absurd (h ▸ List.mem_map_of_mem hr) hsince

theorem Last.le_time {log : List ServiceNote} {q r : ServiceNote} {later : List ServiceNote}
    (htimes : log.Pairwise (·.time ≤ ·.time)) (hq : Last log q later) (hr : r ∈ later) :
    q.time ≤ r.time := by
  obtain ⟨⟨earlier, rfl⟩, -⟩ := hq
  rw [List.pairwise_append, List.pairwise_cons] at htimes
  exact htimes.2.1.1 r hr

theorem Last.mem {log : List ServiceNote} {q r : ServiceNote} {later : List ServiceNote}
    (hq : Last log q later) (hr : r ∈ q :: later) : r ∈ log := by
  obtain ⟨⟨earlier, rfl⟩, -⟩ := hq
  exact List.mem_append_right _ hr

/-- One more answer leaves the answers to other names the last ones, and is one itself. -/
theorem last_concat {log : List ServiceNote} {n q : ServiceNote} {later : List ServiceNote} :
    Last (log ++ [n]) q later ↔
      (q = n ∧ later = []) ∨
        ∃ since, later = since ++ [n] ∧ Last log q since ∧ q.host ≠ n.host := by
  constructor
  · rintro ⟨⟨earlier, heq⟩, hnot⟩
    rcases List.eq_nil_or_concat later with rfl | ⟨since, last, rfl⟩
    · obtain ⟨-, hn⟩ := List.append_inj' heq rfl
      exact .inl ⟨(List.cons.inj hn).1.symm, rfl⟩
    · rw [List.concat_eq_append, ← List.cons_append, ← List.append_assoc] at heq
      obtain ⟨hlog, hn⟩ := List.append_inj' heq rfl
      obtain rfl := (List.cons.inj hn).1
      simp only [names, List.concat_eq_append, List.map_append, List.mem_append, not_or] at hnot
      exact .inr ⟨since, by simp, ⟨⟨earlier, hlog⟩, hnot.1⟩, by simpa using hnot.2⟩
  · rintro (⟨rfl, rfl⟩ | ⟨since, rfl, ⟨⟨earlier, rfl⟩, hnot⟩, hne⟩)
    · exact ⟨⟨log, rfl⟩, by simp [names]⟩
    · refine ⟨⟨earlier, by simp⟩, ?_⟩
      simpa [names, hne] using hnot

theorem others_of_not_mem {host : String} {log : List ServiceNote} (h : host ∉ names log) :
    others host log = (names log).dedup.length := by
  rw [others, List.filter_eq_self.2]
  intro name hname
  simpa using fun heq : name = host => h (heq ▸ hname)

theorem others_le_append (host : String) (log more : List ServiceNote) :
    others host log ≤ others host (log ++ more) := by
  apply List.Subperm.length_le
  apply List.subperm_of_subset (List.nodup_dedup _)
  intro name hname
  simp only [names, List.map_append, List.filter_append, List.mem_dedup, List.mem_append] at hname ⊢
  exact .inl hname

theorem dedup_concat (xs : List String) (x : String) :
    (xs ++ [x]).dedup = xs.dedup.filter (· ≠ x) ++ [x] := by
  induction xs with
  | nil => rfl
  | cons y xs ih =>
      rw [List.cons_append, List.dedup_cons, List.dedup_cons, ih]
      by_cases hx : y = x
      · subst hx
        by_cases hy : y ∈ xs <;> simp [hy]
      · by_cases hy : y ∈ xs <;> simp [hy, hx]

variable {ν : Type}

theorem getElem?_foldl_erase (dropped : List String) (entries : Std.HashMap String KeptAnswer)
    (name : String) : (dropped.foldl (fun m n => m.erase n) entries)[name]? =
      if name ∈ dropped then none else entries[name]? := by
  induction dropped generalizing entries with
  | nil => rfl
  | cons d dropped ih =>
      rw [List.foldl_cons, ih, Std.HashMap.getElem?_erase]
      grind

/-- Keeping an answer to a new name puts it at the end of the queue and drops names from the front,
as many as there are too many. -/
theorem keep_splits {c : CachedLookup ν} {host : String} (hfree : host ∉ c.order) (now : Nat)
    (found : List IpAddr) :
    ∃ dropped, c.order ++ [host] = dropped ++ (c.keep now host found).order ∧
      dropped.length = (c.order ++ [host]).length - maxEntries ∧
      ∀ name, (c.keep now host found).entries[name]? =
        if name ∈ dropped then none
        else if host = name then some ⟨found, now + c.lifetime⟩ else c.entries[name]? := by
  have horder : c.order.filter (· != host) = c.order := by
    rw [List.filter_eq_self]
    intro name hname
    simpa using fun heq : name = host => hfree (heq ▸ hname)
  refine ⟨(c.order ++ [host]).take ((c.order ++ [host]).length - maxEntries), ?_, ?_, ?_⟩
  · rw [CachedLookup.keep, horder, List.take_append_drop]
  · rw [List.length_take]
    omega
  · intro name
    rw [CachedLookup.keep, horder, getElem?_foldl_erase, Std.HashMap.getElem?_insert]
    simp only [beq_iff_eq]

theorem lifetime_keep (c : CachedLookup ν) (now : Nat) (host : String) (found : List IpAddr) :
    (c.keep now host found).lifetime = c.lifetime := by
  rw [CachedLookup.keep]

/-- The kept answers are last answers. Of the names that were answered less than a lifetime ago, one
is in the queue if and only if fewer than `maxEntries` names were answered since, and these are then
what stands behind it. -/
structure Tracks (c : CachedLookup ν) (log : List ServiceNote) (now : Nat) : Prop where
  times : log.Pairwise (·.time ≤ ·.time)
  past : ∀ q ∈ log, q.time ≤ now
  needed : ∀ earlier q later, log = earlier ++ q :: later →
    ∀ p, ¬Stands c.lifetime q.time q.host earlier p
  keys : ∀ name, name ∈ c.entries ↔ name ∈ c.order
  nodup : c.order.Nodup
  bounded : c.order.length ≤ maxEntries
  entry : ∀ name kept, c.entries[name]? = some kept → ∃ q later, Last log q later ∧
    q.host = name ∧ q.outcome = .ok kept.addresses ∧ kept.expiresAt = q.time + c.lifetime
  behind : ∀ q later, Last log q later → now < q.time + c.lifetime →
    (names later).dedup.length < maxEntries → q.host :: (names later).dedup <:+ c.order
  gone : ∀ q later, Last log q later → now < q.time + c.lifetime →
    maxEntries ≤ (names later).dedup.length → q.host ∉ c.order

namespace Tracks

variable {c : CachedLookup ν} {log : List ServiceNote} {now : Nat}

theorem new (service : ν) (lifetime now : Nat) : (new service lifetime).Tracks [] now where
  times := .nil
  past q hq := by cases hq
  needed earlier q later h := by simp at h
  keys name := by simp [CachedLookup.new]
  nodup := .nil
  bounded := Nat.zero_le _
  entry name kept h := by simp [CachedLookup.new] at h
  behind q later h := by simp [Last] at h
  gone q later h := by simp [Last] at h

/-- The service is not part of what is tracked. -/
theorem withService (h : c.Tracks log now) (service : ν) :
    Tracks { c with service } log now where
  times := h.times
  past := h.past
  needed := h.needed
  keys := h.keys
  nodup := h.nodup
  bounded := h.bounded
  entry := h.entry
  behind := h.behind
  gone := h.gone

theorem wait (h : c.Tracks log now) (time : Nat) : c.Tracks log (now + time) where
  times := h.times
  past q hq := Nat.le_add_right_of_le (h.past q hq)
  needed := h.needed
  keys := h.keys
  nodup := h.nodup
  bounded := h.bounded
  entry := h.entry
  behind q later hq hvalid := h.behind q later hq (by omega)
  gone q later hq hvalid := h.gone q later hq (by omega)

/-- An answer that holds is the last one to its name: a later question was not needed. -/
theorem last_of_stands (h : c.Tracks log now) {host : String} {q : ServiceNote}
    (hq : Stands c.lifetime now host log q) :
    ∃ later, Last log q later ∧ q.host = host ∧ now < q.time + c.lifetime ∧
      (names later).dedup.length < maxEntries := by
  obtain ⟨earlier, later, rfl, rfl, hvalid, hfew⟩ := hq
  have hlast : q.host ∉ names later := by
    intro hmem
    obtain ⟨r, hr, hhost⟩ := List.mem_map.1 hmem
    obtain ⟨since, after, rfl⟩ := List.append_of_mem hr
    apply h.needed (earlier ++ q :: since) r after (by simp) q
    refine ⟨earlier, since, rfl, hhost.symm, ?_, ?_⟩
    · exact Nat.lt_of_le_of_lt (h.past r (by simp)) hvalid
    · rw [hhost]
      exact Nat.lt_of_le_of_lt (others_le_append q.host since (r :: after)) hfew
  rw [others_of_not_mem hlast] at hfew
  exact ⟨later, ⟨⟨earlier, rfl⟩, hlast⟩, rfl, hvalid, hfew⟩

theorem kept_of_stands (h : c.Tracks log now) {host : String} {q : ServiceNote}
    (hq : Stands c.lifetime now host log q) :
    ∃ kept, c.entries[host]? = some kept ∧ now < kept.expiresAt ∧
      q.outcome = .ok kept.addresses := by
  obtain ⟨later, hlast, rfl, hvalid, hfew⟩ := h.last_of_stands hq
  have hqueued : q.host ∈ c.order :=
    (h.behind q later hlast hvalid hfew).subset List.mem_cons_self
  have hentry := (h.keys q.host).2 hqueued
  obtain ⟨p, since, hp, hhost, hanswer, hexpires⟩ :=
    h.entry q.host _ (Std.HashMap.getElem?_eq_some_getElem hentry)
  obtain ⟨rfl, -⟩ := hp.unique hlast hhost
  exact ⟨_, Std.HashMap.getElem?_eq_some_getElem hentry, by omega, hanswer⟩

theorem stands_of_kept (h : c.Tracks log now) {host : String} {kept : KeptAnswer}
    (hkept : c.entries[host]? = some kept) (hvalid : now < kept.expiresAt) :
    ∃ q, Stands c.lifetime now host log q ∧ q.outcome = .ok kept.addresses := by
  obtain ⟨q, later, hlast, rfl, hanswer, hexpires⟩ := h.entry host kept hkept
  rw [hexpires] at hvalid
  have hqueued : q.host ∈ c.order := by
    rw [← h.keys, Std.HashMap.mem_iff_isSome_getElem?, hkept]
    rfl
  obtain ⟨⟨earlier, heq⟩, hnot⟩ := id hlast
  refine ⟨q, ⟨earlier, later, heq, rfl, hvalid, ?_⟩, hanswer⟩
  rw [others_of_not_mem hnot]
  apply Nat.lt_of_not_le
  intro hmany
  exact h.gone q later hlast hvalid hmany hqueued

/-- Forgetting what is too old does not touch the names behind one that is not: they were answered
later still. -/
theorem forget (h : c.Tracks log now) {host : String} {kept : KeptAnswer}
    (hkept : c.entries[host]? = some kept) (hexpired : kept.expiresAt ≤ now) :
    Tracks { c with entries := c.entries.erase host, order := c.order.filter (· != host) }
      log now where
  times := h.times
  past := h.past
  needed := h.needed
  keys name := by
    have := h.keys name
    grind
  nodup := h.nodup.filter _
  bounded := Nat.le_trans (List.length_filter_le _ _) h.bounded
  entry name kept hname := by
    rw [Std.HashMap.getElem?_erase] at hname
    split at hname
    · cases hname
    · exact h.entry name kept hname
  behind q later hlast hvalid hfew := by
    obtain ⟨p, since, hp, rfl, -, hexpires⟩ := h.entry host kept hkept
    have hyounger : p.time < q.time := by
      change now < q.time + c.lifetime at hvalid
      omega
    have hother : ∀ r ∈ q :: later, r.host ≠ p.host := by
      intro r hr hhost
      have hrp := hp.time_le h.times (hlast.mem hr) hhost
      cases hr with
      | head => exact Nat.not_lt.2 hrp hyounger
      | tail _ hr =>
          have hqr := hlast.le_time h.times hr
          exact Nat.not_lt.2 (Nat.le_trans hqr hrp) hyounger
    have hsuffix := (h.behind q later hlast hvalid hfew).filter (· != p.host)
    rwa [List.filter_eq_self.2] at hsuffix
    intro name hname
    cases hname with
    | head => simpa using hother q List.mem_cons_self
    | tail _ hname =>
        obtain ⟨r, hr, rfl⟩ := List.mem_map.1 (List.mem_dedup.1 hname)
        simpa using hother r (List.mem_cons_of_mem _ hr)
  gone q later hlast hvalid hmany hmem :=
    h.gone q later hlast hvalid hmany (List.mem_filter.1 hmem).1

/-- What stands behind a name that is kept is of other names than a new one, so that the new one
makes one more. -/
theorem dedup_names_concat {since : List ServiceNote} {n : ServiceNote}
    (h : n.host ∉ (names since).dedup) :
    (names (since ++ [n])).dedup = (names since).dedup ++ [n.host] := by
  rw [names, List.map_append, List.map_singleton, dedup_concat, List.filter_eq_self.2]
  · rfl
  · intro name hname
    simpa using fun heq : name = n.host => h (heq ▸ hname)

theorem length_dedup_names_le_concat (since : List ServiceNote) (n : ServiceNote) :
    (names since).dedup.length ≤ (names (since ++ [n])).dedup.length := by
  apply List.Subperm.length_le
  apply List.subperm_of_subset (List.nodup_dedup _)
  intro name hname
  rw [names, List.map_append, List.mem_dedup]
  exact List.mem_append_left _ (List.mem_dedup.1 hname)

section Keep

variable {n : ServiceNote} {dropped order : List String}

/-- The names behind one that is in the queue do not include a new one. -/
theorem not_mem_behind (hfree : n.host ∉ c.order) {q : ServiceNote} {since : List ServiceNote}
    (hsuffix : q.host :: (names since).dedup <:+ c.order) : n.host ∉ (names since).dedup :=
  fun hmem => hfree (hsuffix.subset (List.mem_cons_of_mem _ hmem))

/-- A part of the end of the old queue and the new name that is not too long stays. -/
theorem suffix_stays (h : c.Tracks log now) (hsplit : c.order ++ [n.host] = dropped ++ order)
    (hdropped : dropped.length = (c.order ++ [n.host]).length - maxEntries) {part : List String}
    (hpart : part <:+ c.order ++ [n.host]) (hshort : part.length ≤ maxEntries) :
    part <:+ order := by
  have hlength := congrArg List.length hsplit
  have hbounded := h.bounded
  simp only [List.length_append, List.length_singleton] at hlength hdropped
  rw [hsplit] at hpart
  apply List.suffix_of_suffix_length_le hpart (List.suffix_append _ _)
  have := hpart.length_le
  rw [List.length_append] at this
  omega

theorem behind_keep (h : c.Tracks log now) (hfree : n.host ∉ c.order)
    (hsplit : c.order ++ [n.host] = dropped ++ order)
    (hdropped : dropped.length = (c.order ++ [n.host]).length - maxEntries)
    {q : ServiceNote} {later : List ServiceNote} (hlast : Last (log ++ [n]) q later)
    (hvalid : now < q.time + c.lifetime) (hfew : (names later).dedup.length < maxEntries) :
    q.host :: (names later).dedup <:+ order := by
  refine h.suffix_stays hsplit hdropped ?_ (by rwa [List.length_cons])
  rcases last_concat.1 hlast with ⟨rfl, rfl⟩ | ⟨since, rfl, hlast, hne⟩
  · exact List.suffix_append _ _
  · have hfewer := Nat.lt_of_le_of_lt (length_dedup_names_le_concat since n) hfew
    have hsuffix := h.behind q since hlast hvalid hfewer
    rw [dedup_names_concat (not_mem_behind hfree hsuffix), ← List.cons_append]
    obtain ⟨front, hfront⟩ := hsuffix
    exact ⟨front, by rw [← List.append_assoc, hfront]⟩

/-- When one name too many is answered after `q`, the queue is full and `q` at its front. -/
theorem gone_keep (h : c.Tracks log now) (hfree : n.host ∉ c.order)
    (hsplit : c.order ++ [n.host] = dropped ++ order)
    (hdropped : dropped.length = (c.order ++ [n.host]).length - maxEntries)
    (hnodup : (dropped ++ order).Nodup)
    {q : ServiceNote} {later : List ServiceNote} (hlast : Last (log ++ [n]) q later)
    (hvalid : now < q.time + c.lifetime) (hmany : maxEntries ≤ (names later).dedup.length) :
    q.host ∉ order := by
  intro hmem
  rcases last_concat.1 hlast with ⟨rfl, rfl⟩ | ⟨since, rfl, hlast, hne⟩
  · exact absurd hmany (by decide)
  · have hqueued : q.host ∈ c.order := by
      have hold : q.host ∈ c.order ++ [n.host] := hsplit ▸ List.mem_append_right _ hmem
      rcases List.mem_append.1 hold with hold | hold
      · exact hold
      · exact absurd (List.mem_singleton.1 hold) hne
    have hfewer : (names since).dedup.length < maxEntries := by
      apply Nat.lt_of_not_le
      intro hmany
      exact h.gone q since hlast hvalid hmany hqueued
    have hsuffix := h.behind q since hlast hvalid hfewer
    have hbounded := h.bounded
    rw [dedup_names_concat (not_mem_behind hfree hsuffix), List.length_append,
      List.length_singleton] at hmany
    have hall : q.host :: (names since).dedup = c.order := by
      apply hsuffix.eq_of_length_le
      rw [List.length_cons]
      omega
    have hone : dropped.length = 1 := by
      rw [← hall, List.length_cons] at hbounded
      rw [← hall, List.length_append, List.length_cons, List.length_singleton] at hdropped
      omega
    obtain ⟨front, rfl⟩ := List.length_eq_one_iff.1 hone
    rw [← hall] at hsplit
    obtain rfl := (List.cons.inj hsplit).1
    exact (List.nodup_cons.1 hnodup).1 hmem

/-- What is kept is still the last answer to its name, also after one to another name. -/
theorem entry_keep (h : c.Tracks log now) {name : String} {kept : KeptAnswer}
    (hkept : c.entries[name]? = some kept) (hother : n.host ≠ name) :
    ∃ q later, Last (log ++ [n]) q later ∧ q.host = name ∧ q.outcome = .ok kept.addresses ∧
      kept.expiresAt = q.time + c.lifetime := by
  obtain ⟨q, since, hlast, rfl, hanswer, hexpires⟩ := h.entry name kept hkept
  exact ⟨q, since ++ [n], last_concat.2 (.inr ⟨since, rfl, hlast, hother.symm⟩), rfl, hanswer,
    hexpires⟩

theorem needed_keep (h : c.Tracks log now) (htime : n.time = now)
    (hnew : ∀ p, ¬Stands c.lifetime now n.host log p) {earlier later : List ServiceNote}
    {q : ServiceNote} (heq : log ++ [n] = earlier ++ q :: later) (p : ServiceNote) :
    ¬Stands c.lifetime q.time q.host earlier p := by
  rcases List.eq_nil_or_concat later with rfl | ⟨since, last, rfl⟩
  · obtain ⟨rfl, hn⟩ := List.append_inj' heq rfl
    obtain ⟨rfl, -⟩ := List.cons.inj hn
    rw [htime]
    exact hnew p
  · rw [List.concat_eq_append, ← List.cons_append, ← List.append_assoc] at heq
    exact h.needed earlier q since (List.append_inj' heq rfl).1 p

end Keep

/-- A new answer pushes one name out of a full queue, that of the oldest one. -/
theorem keep (h : c.Tracks log now) {n : ServiceNote} {found : List IpAddr} (htime : n.time = now)
    (hfound : n.outcome = .ok found) (hfree : n.host ∉ c.order)
    (hnew : ∀ p, ¬Stands c.lifetime now n.host log p) :
    (c.keep now n.host found).Tracks (log ++ [n]) now := by
  obtain ⟨dropped, hsplit, hdropped, hentries⟩ := keep_splits hfree now found
  have hlifetime := lifetime_keep c now n.host found
  generalize c.keep now n.host found = d at hsplit hentries hlifetime ⊢
  have hnodup : (dropped ++ d.order).Nodup := by
    rw [← hsplit, ← List.concat_eq_append]
    exact h.nodup.concat hfree
  obtain ⟨-, hunique, hparts⟩ := List.nodup_append.1 hnodup
  refine ⟨?_, ?_, ?_, ?_, hunique, ?_, ?_, ?_, ?_⟩
  · rw [List.pairwise_append]
    refine ⟨h.times, List.pairwise_singleton _ _, ?_⟩
    intro q hq r hr
    rw [List.mem_singleton.1 hr, htime]
    exact h.past q hq
  · intro q hq
    rcases List.mem_append.1 hq with hq | hq
    · exact h.past q hq
    · rw [List.mem_singleton.1 hq]
      exact Nat.le_of_eq htime
  · intro earlier q later heq
    rw [hlifetime]
    exact h.needed_keep htime hnew heq
  · intro name
    have hmem : name ∈ dropped ∨ name ∈ d.order ↔ name ∈ c.entries ∨ name = n.host := by
      rw [← List.mem_append, ← hsplit, List.mem_append, List.mem_singleton, h.keys]
    rw [Std.HashMap.mem_iff_isSome_getElem?] at hmem ⊢
    rw [hentries]
    grind
  · have hlength : (c.order ++ [n.host]).length = dropped.length + d.order.length := by
      rw [hsplit, List.length_append]
    omega
  · intro name kept hname
    rw [hlifetime]
    rw [hentries] at hname
    split at hname
    · cases hname
    · split at hname
      · rename_i hhost
        obtain rfl := Option.some.inj hname
        refine ⟨n, [], last_concat.2 (.inl ⟨rfl, rfl⟩), hhost, hfound, ?_⟩
        rw [htime]
      · rename_i hhost
        exact h.entry_keep hname hhost
  · intro q later hlast hvalid hfew
    rw [hlifetime] at hvalid
    exact h.behind_keep hfree hsplit hdropped hlast hvalid hfew
  · intro q later hlast hvalid hmany
    rw [hlifetime] at hvalid
    exact h.gone_keep hfree hsplit hdropped hnodup hlast hvalid hmany

/-- A question is answered by the answer that holds. Without one nothing is kept for the name. -/
theorem remembered (h : c.Tracks log now) (host : String) :
    (∃ found, c.remembered now host = (some found, c) ∧
      (∃ q, Stands c.lifetime now host log q) ∧
      ∀ q, Stands c.lifetime now host log q → q.outcome = .ok found) ∨
    ∃ d, c.remembered now host = (none, d) ∧ d.Tracks log now ∧ d.service = c.service ∧
      d.lifetime = c.lifetime ∧ d.entries[host]? = none ∧
      ∀ q, ¬Stands c.lifetime now host log q := by
  cases hkept : c.entries[host]? with
  | none =>
      refine .inr ⟨c, by simp only [CachedLookup.remembered, hkept], h, rfl, rfl, hkept, ?_⟩
      intro q hq
      obtain ⟨kept, hsome, -⟩ := h.kept_of_stands hq
      rw [hkept] at hsome
      cases hsome
  | some kept =>
      by_cases hvalid : now < kept.expiresAt
      · obtain ⟨q, hq, -⟩ := h.stands_of_kept hkept hvalid
        refine .inl ⟨kept.addresses, ?_, ⟨q, hq⟩, ?_⟩
        · simp only [CachedLookup.remembered, hkept, if_pos hvalid]
        · intro p hp
          obtain ⟨other, hsome, -, hanswer⟩ := h.kept_of_stands hp
          rw [hkept] at hsome
          rw [hanswer, Option.some.inj hsome]
      · refine .inr ⟨_, by simp only [CachedLookup.remembered, hkept, if_neg hvalid],
          h.forget hkept (Nat.not_lt.1 hvalid), rfl, rfl, Std.HashMap.getElem?_erase_self, ?_⟩
        intro q hq
        obtain ⟨other, hsome, hholds, -⟩ := h.kept_of_stands hq
        rw [hkept] at hsome
        obtain rfl := Option.some.inj hsome
        exact hvalid hholds

end Tracks

theorem distinct_eq_eraseDups (addresses : List IpAddr) :
    distinct addresses = addresses.eraseDups := by
  have hfold (seen : List IpAddr) :
      addresses.foldl (fun seen a => if a ∈ seen then seen else seen ++ [a]) seen =
        seen ++ (addresses.filter (· ∉ seen)).eraseDups := by
    induction addresses generalizing seen with
    | nil => simp
    | cons a addresses ih =>
        rw [List.foldl_cons, ih]
        by_cases ha : a ∈ seen
        · simp [ha]
        · have hboth (b : IpAddr) : decide (b ∉ seen ++ [a]) = (!b == a && decide (b ∉ seen)) := by
            rw [Bool.eq_iff_iff]
            simp [and_comm]
          simp only [ha, if_false, hboth, List.filter_cons, not_false_eq_true, decide_true, if_true,
            List.eraseDups_cons, List.filter_filter, List.append_assoc, List.singleton_append]
  rw [distinct, hfold]
  simp

variable [NameService ν]

theorem fetch_eq (c : CachedLookup (RecordedService ν)) (now : Nat) {host : String}
    (hnul : '\x00' ∉ host.toList) :
    let n : ServiceNote := ⟨now, host, (NameService.lookup c.service.service now host).1⟩
    ∃ service, c.fetch now host =
      (n.outcome, { c with service := ⟨service, c.service.notes ++ [n]⟩ }) := by
  intro n
  refine ⟨(NameService.lookup c.service.service now host).2, ?_⟩
  cases hlookup : NameService.lookup c.service.service now host with
  | mk answer service =>
      have hn : n = ⟨now, host, answer⟩ := by simp only [n, hlookup]
      have hrecorded : NameService.lookup c.service now host =
          (answer, ⟨service, c.service.notes ++ [n]⟩) := by
        simp only [NameService.lookup, hlookup, hn]
      simp only [fetch, NameService.ask, if_neg hnul, hrecorded]
      cases answer with
      | error failure => simp only [hn, ServiceNote.outcome]
      | ok addresses =>
          simp only [hn, ServiceNote.outcome, distinct_eq_eraseDups]
          cases addresses with
          | nil => rfl
          | cons a others => simp only [List.eraseDups_cons]

theorem fetch_of_nul (c : CachedLookup ν) (now : Nat) {host : String}
    (hnul : '\x00' ∈ host.toList) :
    ∃ reason, c.fetch now host = (.error (.lookupFailed reason), c) := by
  refine ⟨"file name contained an unexpected NUL byte", ?_⟩
  simp only [fetch, NameService.ask, if_pos hnul]

theorem answered_concat (notes : List ServiceNote) (n : ServiceNote) :
    answered (notes ++ [n]) = if n.outcome.isOk then answered notes ++ [n] else answered notes := by
  rw [answered, List.filter_append, List.filter_singleton]
  cases n.outcome.isOk with
  | true => rfl
  | false => exact List.append_nil _

/-- A name that nothing is kept for is asked about, and the answer is kept if it has addresses. -/
theorem addresses_of_unkept {c d : CachedLookup (RecordedService ν)} {now : Nat} {host : String}
    (hrun : c.remembered now host = (none, d)) (hnul : '\x00' ∉ host.toList)
    (hd : d.Tracks (answered d.service.notes) now) (hfree : d.entries[host]? = none)
    (hnone : ∀ q, ¬Stands d.lifetime now host (answered d.service.notes) q) :
    let n : ServiceNote := ⟨now, host, (NameService.lookup d.service.service now host).1⟩
    ∃ e, c.addresses now host = (n.outcome, e) ∧ e.lifetime = d.lifetime ∧
      e.service.notes = d.service.notes ++ [n] ∧ e.Tracks (answered e.service.notes) now ∧
      (n.outcome.isOk = false → e.entries[host]? = none) := by
  intro n
  obtain ⟨service, hfetch⟩ := d.fetch_eq now hnul
  have htracks := hd.withService (⟨service, d.service.notes ++ [n]⟩ : RecordedService ν)
  change d.fetch now host =
    (n.outcome, { d with service := ⟨service, d.service.notes ++ [n]⟩ }) at hfetch
  generalize hasked :
    { d with service := (⟨service, d.service.notes ++ [n]⟩ : RecordedService ν) } = asked
    at hfetch htracks
  obtain ⟨hnotes, hlifetime, hentries, horder⟩ : asked.service.notes = d.service.notes ++ [n] ∧
      asked.lifetime = d.lifetime ∧ asked.entries = d.entries ∧ asked.order = d.order := by
    rw [← hasked]
    exact ⟨rfl, rfl, rfl, rfl⟩
  cases houtcome : n.outcome with
  | error e =>
      rw [houtcome] at hfetch
      refine ⟨asked, by simp only [addresses, hrun, hfetch], hlifetime, hnotes, ?_, ?_⟩
      · rw [hnotes, answered_concat, houtcome]
        exact htracks
      · intro _
        rw [hentries, hfree]
  | ok found =>
      rw [houtcome] at hfetch
      refine ⟨asked.keep now host found, by simp only [addresses, hrun, hfetch],
        (lifetime_keep asked now host found).trans hlifetime, ?_, ?_, nofun⟩
      · rw [← hnotes, keep]
      · have hservice : (asked.keep now host found).service = asked.service := by rw [keep]
        rw [hservice, hnotes, answered_concat, houtcome]
        apply htracks.keep rfl houtcome
        · rw [← htracks.keys, Std.HashMap.mem_iff_isSome_getElem?, hentries, hfree]
          exact Bool.false_ne_true
        · intro q
          rw [hlifetime]
          exact hnone q

/-- What a question does to a lookup whose cache tracks the answers its service gave. -/
theorem Tracks.addresses {c : CachedLookup (RecordedService ν)} {now : Nat}
    (h : c.Tracks (answered c.service.notes) now) (host : String) :
    let r := c.addresses now host
    let n : ServiceNote := ⟨now, host, (NameService.lookup c.service.service now host).1⟩
    let holds := Stands c.lifetime now host (answered c.service.notes)
    r.2.lifetime = c.lifetime ∧ r.2.Tracks (answered r.2.service.notes) now ∧
      (∀ q, holds q → r = (q.outcome, c)) ∧
      ('\x00' ∈ host.toList → r.2.service = c.service) ∧
      ('\x00' ∉ host.toList → (∀ q, ¬holds q) → r.1 = n.outcome ∧
        r.2.service.notes = c.service.notes ++ [n] ∧
        (n.outcome.isOk = false → r.2.entries[host]? = none)) := by
  intro r n holds
  rcases h.remembered host with
    ⟨found, hrun, ⟨q, hq⟩, hall⟩ | ⟨d, hrun, hd, hservice, hlifetime, hfree, hnone⟩
  · have hr : r = (.ok found, c) := by simp only [r, CachedLookup.addresses, hrun]
    rw [hr]
    refine ⟨rfl, h, ?_, fun _ => rfl, fun _ hnone => absurd hq (hnone q)⟩
    intro p hp
    rw [hall p hp]
  · rw [← hservice] at hd
    by_cases hnul : '\x00' ∈ host.toList
    · obtain ⟨reason, hfetch⟩ := d.fetch_of_nul now hnul
      have hr : r = (.error (.lookupFailed reason), d) := by
        simp only [r, CachedLookup.addresses, hrun, hfetch]
      rw [hr]
      exact ⟨hlifetime, hd, fun q hq => absurd hq (hnone q), fun _ => hservice,
        fun hnot => absurd hnul hnot⟩
    · obtain ⟨e, hr, hsame, hnotes, htracks, hfailed⟩ := addresses_of_unkept hrun hnul hd hfree
        (by rwa [hlifetime, hservice])
      rw [hservice] at hr hnotes hfailed
      change r = (n.outcome, e) at hr
      rw [hr]
      exact ⟨hsame.trans hlifetime, htracks, fun q hq => absurd hq (hnone q),
        fun hin => absurd hin hnul, fun _ _ => ⟨rfl, hnotes, hfailed⟩⟩

/-- A socket address of this address and port, for IPv6 without flow information and scope. -/
inductive AtPort (port : UInt16) : IpAddr → SocketAddr → Prop
  | v4 (a : Ipv4) : AtPort port (.v4 a) (.v4 { ip := a, port })
  | v6 (a : Ipv6) : AtPort port (.v6 a) (.v6 { ip := a, port, flow := 0, scope := 0 })

/-- What a question gets when this is the outcome: the addresses in their order, each with the port
asked for, or the failure. -/
inductive Replies (port : UInt16) :
    Except ResolveError (List IpAddr) → Except ResolveError (List SocketAddr) → Prop
  | found {addresses : List IpAddr} {given : List SocketAddr}
      (h : addresses.Forall₂ (AtPort port) given) : Replies port (.ok addresses) (.ok given)
  | failed (e : ResolveError) : Replies port (.error e) (.error e)

theorem atPort_of (port : UInt16) (ip : IpAddr) : AtPort port ip (.of ip port) := by
  cases ip with
  | v4 a => exact .v4 a
  | v6 a => exact .v6 a

theorem replies_outcome (port : UInt16) (outcome : Except ResolveError (List IpAddr)) :
    Replies port outcome (outcome.map (·.map (SocketAddr.of · port))) := by
  cases outcome with
  | error e => exact .failed e
  | ok addresses =>
      refine .found (List.forall₂_map_right_iff.2 (List.forall₂_same.2 fun ip _ => ?_))
      exact atPort_of port ip

/-- The service can be asked about a host: without the blanks around it, it is neither empty nor too
long, no address, and free of NUL. -/
structure Askable (host : String) : Prop where
  length_pos : 0 < (Text.trim host).utf8ByteSize
  length_le : (Text.trim host).utf8ByteSize ≤ 255
  nul : '\x00' ∉ (Text.trim host).toList
  not_literal : IpAddr.read? (Text.trim host) = none

/-- A host that the service cannot be asked about is answered without it. -/
theorem resolve_cases (c : CachedLookup ν) (now : Nat) (host : String) (port : UInt16) :
    (¬Askable host ∧ (Resolver.resolve c now host port).2 = c) ∨
    (('\x00' ∉ (Text.trim host).toList → Askable host) ∧ Resolver.resolve c now host port =
      ((c.addresses now (Text.trim host)).1.map (·.map (SocketAddr.of · port)),
        (c.addresses now (Text.trim host)).2)) := by
  by_cases hlength : (Text.trim host).isEmpty ∨ maxHostBytes < (Text.trim host).utf8ByteSize
  · refine .inl ⟨?_, by simp only [Resolver.resolve, if_pos hlength]⟩
    intro h
    have hpos := h.length_pos
    have hle := h.length_le
    simp only [String.isEmpty, beq_iff_eq, maxHostBytes] at hlength
    omega
  · cases hliteral : IpAddr.read? (Text.trim host) with
    | some ip =>
        refine .inl ⟨?_, by simp only [Resolver.resolve, if_neg hlength, hliteral]⟩
        intro h
        rw [h.not_literal] at hliteral
        cases hliteral
    | none =>
        refine .inr ⟨?_, ?_⟩
        · intro hnul
          simp only [String.isEmpty, beq_iff_eq, maxHostBytes] at hlength
          exact ⟨by omega, by omega, hnul, hliteral⟩
        · simp only [Resolver.resolve, if_neg hlength, hliteral]
          cases hrun : c.addresses now (Text.trim host) with
          | mk answer d => cases answer <;> rfl

/-- A question to a lookup whose cache tracks the answers its service gave. -/
theorem Tracks.resolve {c : CachedLookup (RecordedService ν)} {now : Nat}
    (h : c.Tracks (answered c.service.notes) now) (host : String) (port : UInt16) :
    let r := Resolver.resolve c now host port
    let name := Text.trim host
    let n : ServiceNote := ⟨now, name, (NameService.lookup c.service.service now name).1⟩
    let holds := Stands c.lifetime now name (answered c.service.notes)
    (Askable host → (∀ q, ¬holds q) → r.2.service.notes = c.service.notes ++ [n] ∧
      Replies port n.outcome r.1 ∧
      (n.outcome.isOk = false → name ∉ r.2.entries ∧ name ∉ r.2.order)) ∧
    (Askable host → ∀ q, holds q → Replies port q.outcome r.1 ∧ r.2 = c) ∧
    (¬Askable host → r.2.service = c.service) := by
  intro r name n holds
  obtain ⟨-, htracks, hholds, hnul, hasks⟩ := h.addresses name
  rcases c.resolve_cases now host port with ⟨hnot, hsame⟩ | ⟨hcan, hrun⟩
  · exact ⟨fun hyes => absurd hyes hnot, fun hyes => absurd hyes hnot,
      fun _ => congrArg CachedLookup.service hsame⟩
  · change r = ((c.addresses now name).1.map _, (c.addresses now name).2) at hrun
    rw [hrun]
    refine ⟨?_, ?_, ?_⟩
    · intro haskable hnone
      obtain ⟨hanswer, hnotes, hfailed⟩ := hasks haskable.nul hnone
      rw [hanswer]
      refine ⟨hnotes, replies_outcome port n.outcome, ?_⟩
      intro hfailure
      rw [← htracks.keys, and_self, Std.HashMap.mem_iff_isSome_getElem?, hfailed hfailure]
      exact Bool.false_ne_true
    · intro _ q hq
      rw [hholds q hq]
      exact ⟨replies_outcome port q.outcome, rfl⟩
    · intro hnot
      apply hnul
      apply Classical.byContradiction
      intro hfree
      exact hnot (hcan hfree)

def bare (c : CachedLookup (RecordedService ν)) : CachedLookup ν where
  service := c.service.service
  lifetime := c.lifetime
  entries := c.entries
  order := c.order

omit [NameService ν] in
theorem remembered_bare (c : CachedLookup (RecordedService ν)) (now : Nat) (host : String) :
    c.bare.remembered now host = ((c.remembered now host).1, (c.remembered now host).2.bare) := by
  simp only [remembered, bare]
  split
  · rfl
  · split <;> rfl

omit [NameService ν] in
theorem keep_bare (c : CachedLookup (RecordedService ν)) (now : Nat) (host : String)
    (found : List IpAddr) : c.bare.keep now host found = (c.keep now host found).bare := by
  simp only [keep, bare]

theorem fetch_bare (c : CachedLookup (RecordedService ν)) (now : Nat) (host : String) :
    c.bare.fetch now host = ((c.fetch now host).1, (c.fetch now host).2.bare) := by
  cases hlookup : NameService.lookup c.service.service now host with
  | mk answer service =>
      have hbare : NameService.lookup c.bare.service now host = (answer, service) := hlookup
      have hrecorded : NameService.lookup c.service now host =
          (answer, ⟨service, c.service.notes ++ [⟨now, host, answer⟩]⟩) := by
        simp only [NameService.lookup, hlookup]
      simp only [fetch, NameService.ask, hbare, hrecorded]
      by_cases hnul : '\x00' ∈ host.toList
      · simp only [if_pos hnul]
      · simp only [if_neg hnul]
        cases answer with
        | error failure => rfl
        | ok addresses =>
            simp only
            split <;> rfl

theorem resolve_bare (c : CachedLookup (RecordedService ν)) (now : Nat) (host : String)
    (port : UInt16) : Resolver.resolve c.bare now host port =
      ((Resolver.resolve c now host port).1, (Resolver.resolve c now host port).2.bare) := by
  have haddresses (host : String) : c.bare.addresses now host =
      ((c.addresses now host).1, (c.addresses now host).2.bare) := by
    simp only [addresses, remembered_bare]
    cases c.remembered now host with
    | mk found d =>
        cases found with
        | some found => rfl
        | none =>
            simp only [fetch_bare]
            cases d.fetch now host with
            | mk answer e =>
                cases answer with
                | error failure => rfl
                | ok found => simp only [keep_bare]
  simp only [Resolver.resolve, haddresses]
  split
  · rfl
  · split
    · rfl
    · cases c.addresses now (Text.trim host) with
      | mk answer d => cases answer <;> rfl

inductive Call
  | resolve (host : String) (port : UInt16)
  | wait (time : Nat)

/-- A lookup in use, with a clock that only goes forward. -/
structure Desk (ν : Type) where
  lookup : CachedLookup ν
  now : Nat

namespace Desk

def answer (d : Desk ν) : Call → Option (Except ResolveError (List SocketAddr)) × Desk ν
  | .resolve host port =>
      let r := Resolver.resolve d.lookup d.now host port
      (some r.1, { d with lookup := r.2 })
  | .wait time => (none, { d with now := d.now + time })

def bare (d : Desk (RecordedService ν)) : Desk ν where
  lookup := d.lookup.bare
  now := d.now

theorem resolve_bare (d : Desk (RecordedService ν)) (host : String) (port : UInt16) :
    Resolver.resolve d.bare.lookup d.now host port =
      ((Resolver.resolve d.lookup d.now host port).1,
        (Resolver.resolve d.lookup d.now host port).2.bare) := by
  rw [bare, d.lookup.resolve_bare]

/-- The recorder is not noticed. -/
theorem answer_bare (d : Desk (RecordedService ν)) (call : Call) :
    d.bare.answer call = ((d.answer call).1, (d.answer call).2.bare) := by
  cases call with
  | wait time => rfl
  | resolve host port =>
      simp only [answer, show d.bare.now = d.now from rfl, d.resolve_bare]
      simp only [bare]

/-- The lookup tracks what its service answered. -/
structure Follows (d : Desk (RecordedService ν)) (lifetime : Nat) : Prop where
  lifetime : d.lookup.lifetime = lifetime
  tracks : d.lookup.Tracks (answered d.lookup.service.notes) d.now

theorem Follows.answer {d : Desk (RecordedService ν)} {lifetime : Nat} (h : d.Follows lifetime)
    (call : Call) : (d.answer call).2.Follows lifetime := by
  cases call with
  | wait time => exact ⟨h.lifetime, h.tracks.wait time⟩
  | resolve host port =>
      rcases d.lookup.resolve_cases d.now host port with ⟨-, hsame⟩ | ⟨-, hrun⟩
      · simp only [Desk.answer, hsame]
        exact h
      · obtain ⟨hlifetime, htracks, -⟩ := h.tracks.addresses (Text.trim host)
        simp only [Desk.answer, hrun]
        exact ⟨hlifetime.trans h.lifetime, htracks⟩

theorem follows_runAll (service : ν) (lifetime start : Nat) (calls : List Call) :
    (runAll answer ⟨CachedLookup.new (⟨service, []⟩ : RecordedService ν) lifetime, start⟩
      calls).2.Follows (max lifetime 1000) := by
  have hstart : Follows ⟨CachedLookup.new (⟨service, []⟩ : RecordedService ν) lifetime, start⟩
      (max lifetime 1000) := ⟨rfl, Tracks.new _ lifetime start⟩
  have keeps (d : Desk (RecordedService ν)) (call : Call) (h : d.Follows (max lifetime 1000)) :=
    h.answer call
  exact runAll_invariant keeps hstart calls

end Desk

/-- After any run of questions and waits, a question makes the lookup ask its service if and only if
the service can be asked about the host and no answer to it holds: none that is younger than the
lifetime and since which fewer than 512 other names were answered. Else the answer that holds is
given again, address by address, with the port asked for now. A failure leaves nothing behind, and
the cache and its queue always hold the same names, each once and at most 512 of them. -/
theorem runAll_answer_window (service : ν) (lifetime start : Nat) (calls : List Call)
    (host : String) (port : UInt16) :
    let run := runAll Desk.answer
      ⟨CachedLookup.new (⟨service, []⟩ : RecordedService ν) lifetime, start⟩ calls
    let d := run.2
    let r := Resolver.resolve d.lookup d.now host port
    let name := Text.trim host
    let notes := d.lookup.service.notes
    let n : ServiceNote := ⟨d.now, name, (NameService.lookup d.lookup.service.service d.now name).1⟩
    let holds := Stands (max lifetime 1000) d.now name (answered notes)
    let asks := Askable host ∧ ∀ q, ¬holds q
    let replies := fun q : ServiceNote => Replies port q.outcome r.1
    runAll Desk.answer ⟨CachedLookup.new service lifetime, start⟩ calls = (run.1, d.bare) ∧
      Resolver.resolve d.bare.lookup d.now host port = (r.1, r.2.bare) ∧
      (asks → r.2.service.notes = notes ++ [n] ∧ replies n ∧
        (n.outcome.isOk = false → name ∉ r.2.entries ∧ name ∉ r.2.order)) ∧
      (¬asks → r.2.service.notes = notes) ∧
      (Askable host → ∀ q, holds q → replies q) ∧
      (∀ name, name ∈ d.lookup.entries ↔ name ∈ d.lookup.order) ∧ d.lookup.order.Nodup ∧
      d.lookup.order.length ≤ 512 := by
  intro run d
  have hfollows : d.Follows (max lifetime 1000) :=
    Desk.follows_runAll service lifetime start calls
  have hbare : runAll Desk.answer ⟨CachedLookup.new service lifetime, start⟩ calls =
      (run.1, d.bare) := by
    have keeps (e : Desk ν) (f : Desk (RecordedService ν)) (call : Call) (hef : e = f.bare) :
        (e.answer call).1 = (f.answer call).1 ∧ (e.answer call).2 = (f.answer call).2.bare := by
      rw [hef, f.answer_bare]
      exact ⟨rfl, rfl⟩
    have hstart : (⟨CachedLookup.new service lifetime, start⟩ : Desk ν) =
      Desk.bare ⟨CachedLookup.new ⟨service, []⟩ lifetime, start⟩ := rfl
    obtain ⟨hanswers, hlast⟩ := runAll_simulation keeps hstart calls
    exact Prod.ext hanswers hlast
  have hsame := d.resolve_bare host port
  obtain ⟨hasked, hkept, hunaskable⟩ := hfollows.tracks.resolve host port
  rw [hfollows.lifetime] at hasked hkept
  -- What the question does is known from here on, and how it does it no longer matters.
  clear_value d
  generalize Resolver.resolve d.lookup d.now host port = result at hsame hasked hkept hunaskable ⊢
  intro r name notes n holds asks replies
  refine ⟨hbare, hsame, ?_, ?_, ?_, hfollows.tracks.keys, hfollows.tracks.nodup,
    hfollows.tracks.bounded⟩
  · intro hasks
    exact hasked hasks.1 hasks.2
  · intro hnot
    by_cases haskable : Askable host
    · obtain ⟨q, hq⟩ := not_forall_not.1 fun hnone => hnot ⟨haskable, hnone⟩
      exact congrArg (·.service.notes) (hkept haskable q hq).2
    · exact congrArg RecordedService.notes (hunaskable haskable)
  · intro haskable q hq
    exact (hkept haskable q hq).1

end CachedLookup

end Egress
