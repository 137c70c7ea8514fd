import Egress.Proofs.Run
import Egress.Proofs.Waiting

/-!
Transfers over scripted connections. What a socket sends is always an initial part of what it was
to send, all of it if and only if the call succeeds; a peer that takes bytes whenever it is sent any
gets them all. What a socket receives is what the call returns.
-/

namespace Egress

namespace Script

/-- The errors after which a call is made again: it was interrupted, or it would block. -/
def Retried (code : Nat) : Prop := code = 4 ∨ code = 11

/-- The script of a peer that takes at least a byte of what it is sent whenever it takes any: full
and partial accepts, interrupted calls and calls that would block. -/
def Takes (s : Script) : Prop :=
  ∀ e ∈ s, e = .ok ∨ (∃ count, e = .accept (count + 1)) ∨ ∃ code, e = .errno code ∧ Retried code

theorem Takes.ready {s : Script} (h : s.Takes) : s.Ready := by
  intro e he
  rcases h e (List.mem_of_mem_head? he) with rfl | ⟨count, rfl⟩ | ⟨code, rfl, -⟩ <;> exact id

end Script

namespace Socket

/-- `t` is `s` after it received these bytes. Nothing on the writing side has moved. -/
def Took (s t : Socket) (bytes : List UInt8) : Prop :=
  t = { s with
    reading := t.reading, received := s.received ++ bytes, waited := t.waited, calls := t.calls }

theorem Took.refl (s : Socket) : s.Took s [] := by
  simp [Took]

theorem Took.trans {s t u : Socket} {as bs : List UInt8} (hst : s.Took t as) (htu : t.Took u bs) :
    s.Took u (as ++ bs) := by
  rw [Took] at hst htu ⊢
  rw [htu, hst]
  simp

theorem Took.sent {s t : Socket} {bytes : List UInt8} (h : s.Took t bytes) : t.sent = s.sent := by
  rw [Took] at h
  rw [h]

theorem Took.received {s t : Socket} {bytes : List UInt8} (h : s.Took t bytes) :
    t.received = s.received ++ bytes := by
  rw [Took] at h
  rw [h]

theorem took_of_awaitReadable {s t : Socket} {ceiling : Nat} {outcome : Except WaitFailure Unit}
    (h : s.awaitReadable ceiling = (outcome, t)) : s.Took t [] := by
  obtain ⟨-, rfl⟩ := Prod.mk.inj h
  simp [Took]

theorem took_of_tryReceive {s t : Socket} {length : Nat} {outcome : Except Nat (List UInt8)}
    (h : s.tryReceive length = (outcome, t)) : s.Took t (outcome.toOption.getD []) := by
  obtain ⟨rfl, rfl⟩ := Prod.mk.inj h
  simp [Took]

theorem length_le_of_tryReceive {s t : Socket} {length : Nat} {bytes : List UInt8}
    (h : s.tryReceive length = (.ok bytes, t)) : bytes.length ≤ length := by
  have hcall : (s.reading.receive length).1 = .ok bytes := congrArg Prod.fst h
  unfold Script.receive at hcall
  split at hcall
  · cases hcall
  · split at hcall <;> cases hcall
    · assumption
    · exact List.length_take_le ..
  · cases hcall
    exact Nat.zero_le length
  · cases hcall
  · cases hcall

/-- What was received is what the call returns, if it returns anything. -/
theorem took_receiveExact (s : Socket) (ceiling length : Nat) :
    ∃ bytes, s.Took (s.receiveExact ceiling length).2 bytes ∧
      ∀ answer, (s.receiveExact ceiling length).1 = .ok answer → answer = bytes := by
  fun_induction receiveExact s ceiling length with
  | case1 s => exact ⟨[], Took.refl s, by simp⟩
  | case2 s length hpos e t hwait => exact ⟨[], took_of_awaitReadable hwait, by simp⟩
  | case3 s length hpos t hwait u htry =>
      exact ⟨[], (took_of_awaitReadable hwait).trans (took_of_tryReceive htry), by simp⟩
  | case4 s length hpos t hwait b bs u htry more v hrest ih =>
      obtain ⟨bytes, htook, hanswer⟩ := ih
      rw [hrest] at htook hanswer
      have hfirst := (took_of_awaitReadable hwait).trans (took_of_tryReceive htry)
      refine ⟨b :: bs ++ bytes, hfirst.trans htook, fun answer ha => ?_⟩
      rw [← Except.ok.inj ha, hanswer more rfl]
  | case5 s length hpos t hwait b bs u htry e v hrest ih =>
      obtain ⟨bytes, htook, -⟩ := ih
      rw [hrest] at htook
      have hfirst := (took_of_awaitReadable hwait).trans (took_of_tryReceive htry)
      exact ⟨b :: bs ++ bytes, hfirst.trans htook, fun answer ha => by contradiction⟩
  | case6 s length hpos t hwait code u htry hretry ih =>
      obtain ⟨bytes, htook, hanswer⟩ := ih
      have hfirst := (took_of_awaitReadable hwait).trans (took_of_tryReceive htry)
      exact ⟨bytes, hfirst.trans htook, hanswer⟩
  | case7 s length hpos t hwait code u htry hfail =>
      have hfirst := (took_of_awaitReadable hwait).trans (took_of_tryReceive htry)
      exact ⟨[], hfirst, fun answer ha => by contradiction⟩

/-- `t` is `s` after these bytes of its were accepted. Nothing on the reading side has moved. -/
def Gave (s t : Socket) (bytes : List UInt8) : Prop :=
  t = { s with
    connecting := t.connecting, writing := t.writing, sent := s.sent ++ bytes, waited := t.waited
    calls := t.calls }

theorem Gave.refl (s : Socket) : s.Gave s [] := by
  simp [Gave]

theorem Gave.trans {s t u : Socket} {as bs : List UInt8} (hst : s.Gave t as) (htu : t.Gave u bs) :
    s.Gave u (as ++ bs) := by
  rw [Gave] at hst htu ⊢
  rw [htu, hst]
  simp

theorem Gave.reading {s t : Socket} {bytes : List UInt8} (h : s.Gave t bytes) :
    t.reading = s.reading := by
  rw [Gave] at h
  rw [h]

theorem Gave.sent {s t : Socket} {bytes : List UInt8} (h : s.Gave t bytes) :
    t.sent = s.sent ++ bytes := by
  rw [Gave] at h
  rw [h]

theorem Gave.received {s t : Socket} {bytes : List UInt8} (h : s.Gave t bytes) :
    t.received = s.received := by
  rw [Gave] at h
  rw [h]

theorem gave_of_awaitWritable {s t : Socket} {ceiling : Nat} {outcome : Except WaitFailure Unit}
    (h : s.awaitWritable ceiling = (outcome, t)) : s.Gave t [] := by
  unfold awaitWritable at h
  split at h
  · obtain ⟨-, rfl⟩ := Prod.mk.inj h
    simp_all [Gave]
  · obtain ⟨-, rfl⟩ := Prod.mk.inj h
    simp [Gave]

theorem gave_of_trySend {s t : Socket} {bytes : List UInt8} {outcome : Except Nat Nat}
    (h : s.trySend bytes = (outcome, t)) : s.Gave t (bytes.take (outcome.toOption.getD 0)) := by
  obtain ⟨rfl, rfl⟩ := Prod.mk.inj h
  simp [Gave]

/-- What was accepted is an initial part of the bytes, and all of them if and only if the call
succeeds. -/
theorem gave_sendAll (s : Socket) (ceiling : Nat) (bytes : List UInt8) :
    ∃ accepted, accepted <+: bytes ∧ s.Gave (s.sendAll ceiling bytes).2 accepted ∧
      ((s.sendAll ceiling bytes).1 = .ok () ↔ accepted = bytes) := by
  fun_induction sendAll s ceiling bytes with
  | case1 s => exact ⟨[], List.prefix_rfl, Gave.refl s, by simp⟩
  | case2 s b bs t htry => exact ⟨[], List.nil_prefix, gave_of_trySend htry, by simp⟩
  | case3 s b bs count t htry ih =>
      obtain ⟨accepted, hprefix, hgave, hall⟩ := ih
      have hsplit : (b :: bs).take (count + 1) ++ bs.drop count = b :: bs := by simp
      refine ⟨(b :: bs).take (count + 1) ++ accepted, ?_, (gave_of_trySend htry).trans hgave, ?_⟩
      · have happend := (List.prefix_append_right_inj ((b :: bs).take (count + 1))).2 hprefix
        rwa [hsplit] at happend
      · rw [hall, ← List.append_right_inj ((b :: bs).take (count + 1)), hsplit]
  | case4 s b bs t htry ih =>
      obtain ⟨accepted, hprefix, hgave, hall⟩ := ih
      exact ⟨accepted, hprefix, (gave_of_trySend htry).trans hgave, hall⟩
  | case5 s b bs t u hwait htry _ ih =>
      obtain ⟨accepted, hprefix, hgave, hall⟩ := ih
      have hfirst := (gave_of_trySend htry).trans (gave_of_awaitWritable hwait)
      exact ⟨accepted, hprefix, hfirst.trans hgave, hall⟩
  | case6 s b bs t e u hwait htry _ =>
      have hfirst := (gave_of_trySend htry).trans (gave_of_awaitWritable hwait)
      exact ⟨[], List.nil_prefix, hfirst, by simp⟩
  | case7 s b bs code t htry _ _ =>
      exact ⟨[], List.nil_prefix, gave_of_trySend htry, by simp⟩

/-- A connected socket stays connected while it sends, however that ends. -/
theorem connecting_sendAll {s : Socket} (hc : s.connecting = none) (ceiling : Nat)
    (bytes : List UInt8) : (s.sendAll ceiling bytes).2.connecting = none := by
  have hsend {s t : Socket} {bytes : List UInt8} {outcome : Except Nat Nat}
      (htry : s.trySend bytes = (outcome, t)) (hc : s.connecting = none) : t.connecting = none := by
    obtain ⟨-, rfl⟩ := Prod.mk.inj htry
    exact hc
  have hawait {s t : Socket} {outcome : Except WaitFailure Unit}
      (hwait : s.awaitWritable ceiling = (outcome, t)) (hc : s.connecting = none) :
      t.connecting = none := by
    simp only [awaitWritable, hc] at hwait
    obtain ⟨-, rfl⟩ := Prod.mk.inj hwait
    rfl
  fun_induction sendAll s ceiling bytes with
  | case1 s => exact hc
  | case2 s b bs t htry => exact hsend htry hc
  | case3 s b bs count t htry ih => exact ih (hsend htry hc)
  | case4 s b bs t htry ih => exact ih (hsend htry hc)
  | case5 s b bs t u hwait htry _ ih => exact ih (hawait hwait (hsend htry hc))
  | case6 s b bs t e u hwait htry _ => exact hawait hwait (hsend htry hc)
  | case7 s b bs code t htry _ _ => exact hsend htry hc

theorem trySend_of_takes {s t : Socket} {b : UInt8} {bs : List UInt8} {outcome : Except Nat Nat}
    (h : s.writing.Takes) (htry : s.trySend (b :: bs) = (outcome, t)) :
    t.writing.Takes ∧ t.connecting = s.connecting ∧
      ((∃ count, outcome = .ok (count + 1)) ∨ ∃ code, outcome = .error code ∧
        Script.Retried code) := by
  obtain ⟨rfl, rfl⟩ := Prod.mk.inj htry
  cases hw : s.writing with
  | nil => exact ⟨by simp [Script.send, Script.Takes], rfl, .inl ⟨bs.length, rfl⟩⟩
  | cons e rest =>
      rw [hw] at h
      have hrest : Script.Takes rest := fun e he => h e (List.mem_cons_of_mem _ he)
      rcases h e List.mem_cons_self with rfl | ⟨count, rfl⟩ | ⟨code, rfl, hagain⟩
      · exact ⟨hrest, rfl, .inl ⟨bs.length, rfl⟩⟩
      · exact ⟨hrest, rfl, .inl ⟨min count bs.length, by
          simp only [Script.send, List.length_cons, Nat.add_min_add_right]⟩⟩
      · exact ⟨hrest, rfl, .inr ⟨code, rfl, hagain⟩⟩

theorem awaitWritable_of_takes {s t : Socket} {ceiling : Nat} {outcome : Except WaitFailure Unit}
    (h : s.writing.Takes) (hc : s.connecting = none)
    (hwait : s.awaitWritable ceiling = (outcome, t)) :
    outcome = .ok () ∧ t.writing.Takes ∧ t.connecting = none := by
  simp only [awaitWritable, hc, Script.await_ready h.ready] at hwait
  obtain ⟨rfl, rfl⟩ := Prod.mk.inj hwait
  exact ⟨rfl, h, rfl⟩

/-- A connected peer that takes what it is sent gets everything. -/
theorem sendAll_of_takes {s : Socket} (h : s.writing.Takes) (hc : s.connecting = none)
    (ceiling : Nat) (bytes : List UInt8) :
    (s.sendAll ceiling bytes).1 = .ok () ∧ (s.sendAll ceiling bytes).2.writing.Takes ∧
      (s.sendAll ceiling bytes).2.connecting = none := by
  fun_induction sendAll s ceiling bytes with
  | case1 s => exact ⟨rfl, h, hc⟩
  | case2 s b bs t htry =>
      obtain ⟨-, -, ⟨count, hcount⟩ | ⟨code, hcode, -⟩⟩ := trySend_of_takes h htry
      · simp at hcount
      · contradiction
  | case3 s b bs count t htry ih =>
      obtain ⟨ht, hconnecting, -⟩ := trySend_of_takes h htry
      exact ih ht (hconnecting.trans hc)
  | case4 s b bs t htry ih =>
      obtain ⟨ht, hconnecting, -⟩ := trySend_of_takes h htry
      exact ih ht (hconnecting.trans hc)
  | case5 s b bs t u hwait htry _ ih =>
      obtain ⟨ht, hconnecting, -⟩ := trySend_of_takes h htry
      obtain ⟨-, hu, hconnected⟩ := awaitWritable_of_takes ht (hconnecting.trans hc) hwait
      exact ih hu hconnected
  | case6 s b bs t e u hwait htry _ =>
      obtain ⟨ht, hconnecting, -⟩ := trySend_of_takes h htry
      obtain ⟨hok, -⟩ := awaitWritable_of_takes ht (hconnecting.trans hc) hwait
      contradiction
  | case7 s b bs code t htry hneither hnor =>
      obtain ⟨-, -, ⟨count, hcount⟩ | ⟨code, hcode, hagain⟩⟩ := trySend_of_takes h htry
      · contradiction
      · obtain rfl := Except.error.inj hcode
        rcases hagain with hagain | hagain <;> contradiction

end Socket

end Egress
