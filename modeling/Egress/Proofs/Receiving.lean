import Egress.Proofs.Transfer

/-!
Receiving from scripted peers. What a peer sends is received from the front, in parts of whatever
lengths are asked for, however the peer cuts it into chunks and whatever interrupts it; a call fails
only when the peer has nothing left, and then as the event says that comes next.
-/

namespace Egress

/-- How a peer stops sending. -/
inductive Ending
  | closed
  | silent
deriving DecidableEq

/-- What a receiver makes of it when it wants more. -/
def Ending.error : Ending → RouteError
  | closed => .peerClosed
  | silent => .dialTimeout

namespace Script

/-- The script of a peer that sends these bytes and then stops: non-empty chunks, and between any
two of them interrupted waits, interrupted calls and calls that would block. -/
inductive Delivers : Ending → Script → List UInt8 → Prop
  | closed (rest : Script) : Delivers .closed (.eof :: rest) []
  | silent : Delivers .silent [] []
  | stalled (rest : Script) : Delivers .silent (.stall :: rest) []
  | chunk {ending : Ending} {rest : Script} {b : UInt8} {bs more : List UInt8}
      (next : Delivers ending rest more) :
      Delivers ending (.data (b :: bs) :: rest) (b :: bs ++ more)
  | retry {ending : Ending} {rest : Script} {bytes : List UInt8} {code : Nat}
      (again : Retried code) (next : Delivers ending rest bytes) :
      Delivers ending (.errno code :: rest) bytes
  | interrupted {ending : Ending} {rest : Script} {bytes : List UInt8}
      (next : Delivers ending rest bytes) :
      Delivers ending (.poll 4 :: rest) bytes

/-- Non-empty chunks that make up these bytes, and anywhere among them interrupted waits,
interrupted calls and calls that would block. -/
inductive Brings : Script → List UInt8 → Prop
  | nothing : Brings [] []
  | chunk {s : Script} {b : UInt8} {bs more : List UInt8} (next : Brings s more) :
      Brings (.data (b :: bs) :: s) (b :: bs ++ more)
  | retry {s : Script} {bytes : List UInt8} {code : Nat} (again : Retried code)
      (next : Brings s bytes) : Brings (.errno code :: s) bytes
  | interrupted {s : Script} {bytes : List UInt8} (next : Brings s bytes) :
      Brings (.poll 4 :: s) bytes

/-- How a call fails that meets this: the peer has closed, says nothing in time, or the call or the
wait before it fails for good. -/
inductive Stops : Script → RouteError → Prop
  | closed (rest : Script) : Stops (.eof :: rest) .peerClosed
  | silent : Stops [] .dialTimeout
  | stalled (rest : Script) : Stops (.stall :: rest) .dialTimeout
  | failed {code : Nat} {failure : RouteError} (h : ¬Retried code)
      (hmeans : RouteError.Means code failure) (rest : Script) : Stops (.errno code :: rest) failure
  | unready {e : Event} {code : Nat} {failure : RouteError} (h : e.FailsWait code)
      (hmeans : RouteError.Means code failure) (rest : Script) : Stops (e :: rest) failure

theorem Brings.delivers {ending : Ending} {chunks rest : Script} {bytes : List UInt8}
    (h : Brings chunks bytes) (hrest : Delivers ending rest []) :
    Delivers ending (chunks ++ rest) bytes := by
  induction h with
  | nothing => exact hrest
  | chunk _ ih => exact .chunk ih
  | retry again _ ih => exact .retry again ih
  | interrupted _ ih => exact .interrupted ih

theorem Delivers.split {ending : Ending} {s : Script} {bytes : List UInt8}
    (h : Delivers ending s bytes) : ∃ chunks rest, s = chunks ++ rest ∧ Brings chunks bytes ∧
      Stops rest ending.error ∧ Delivers ending rest [] := by
  induction h with
  | closed rest => exact ⟨[], _, rfl, .nothing, .closed rest, .closed rest⟩
  | silent => exact ⟨[], _, rfl, .nothing, .silent, .silent⟩
  | stalled rest => exact ⟨[], _, rfl, .nothing, .stalled rest, .stalled rest⟩
  | chunk _ ih =>
      obtain ⟨chunks, rest, rfl, hchunks, hrest⟩ := ih
      exact ⟨_ :: chunks, rest, rfl, .chunk hchunks, hrest⟩
  | retry again _ ih =>
      obtain ⟨chunks, rest, rfl, hchunks, hrest⟩ := ih
      exact ⟨_ :: chunks, rest, rfl, .retry again hchunks, hrest⟩
  | interrupted _ ih =>
      obtain ⟨chunks, rest, rfl, hchunks, hrest⟩ := ih
      exact ⟨_ :: chunks, rest, rfl, .interrupted hchunks, hrest⟩

end Script

namespace Socket

theorem receiveExact_eq (s : Socket) (ceiling length : Nat) :
    s.receiveExact ceiling length =
      if length = 0 then (.ok [], s)
      else
        match s.awaitReadable ceiling with
        | (.error e, t) => (.error (ofWait e), t)
        | (.ok (), t) =>
            match t.tryReceive length with
            | (.ok [], u) => (.error .peerClosed, u)
            | (.ok (b :: bs), u) =>
                match u.receiveExact ceiling (length - (b :: bs).length) with
                | (.ok more, v) => (.ok (b :: bs ++ more), v)
                | (.error e, v) => (.error e, v)
            | (.error code, u) =>
                if code = Errno.interrupted ∨ code = Errno.wouldBlock then
                  u.receiveExact ceiling length
                else (.error (.ofErrno code), u) := by
  rw [receiveExact]
  split
  · rfl
  · split
    · rename_i hs
      simp only [hs]
    · rename_i hs
      simp only [hs]
      split <;> rename_i ht <;> exact ht ▸ rfl

theorem tryReceive_eq {s : Socket} {rest : Script} {length : Nat}
    {outcome : Except Nat (List UInt8)} (h : s.reading.receive length = (outcome, rest)) :
    ∃ t : Socket, t.reading = rest ∧ s.tryReceive length = (outcome, t) :=
  ⟨(s.tryReceive length).2, congrArg Prod.snd h, Prod.ext (congrArg Prod.fst h :) rfl⟩

def afterWait (s : Socket) (ceiling : Nat) : Socket :=
  { s with waited := some (min ceiling maxWait), calls := s.calls + 2 }

/-- An event that is not about waiting ends a wait and stays for the call that follows. -/
theorem receiveExact_of_ready {s : Socket} {e : Event} {rest : Script} {ceiling length : Nat}
    (hr : s.reading = e :: rest) (he : ¬e.EndsWait) (hn : length ≠ 0) :
    s.receiveExact ceiling length =
      match (s.afterWait ceiling).tryReceive length with
      | (.ok [], t) => (.error .peerClosed, t)
      | (.ok (b :: bs), t) =>
          match t.receiveExact ceiling (length - (b :: bs).length) with
          | (.ok more, u) => (.ok (b :: bs ++ more), u)
          | (.error e, u) => (.error e, u)
      | (.error code, t) =>
          if code = Errno.interrupted ∨ code = Errno.wouldBlock then t.receiveExact ceiling length
          else (.error (.ofErrno code), t) := by
  have hwait : s.awaitReadable ceiling = (.ok (), s.afterWait ceiling) := by
    simp only [awaitReadable, hr, Script.await_of_call he, afterWait]
  rw [receiveExact_eq, if_neg hn, hwait]

theorem receiveExact_of_retry {s : Socket} {rest : Script} {code ceiling length : Nat}
    (hr : s.reading = .errno code :: rest) (again : Script.Retried code) (hn : length ≠ 0) :
    ∃ t : Socket, t.reading = rest ∧
      s.receiveExact ceiling length = t.receiveExact ceiling length := by
  have hcall : (s.afterWait ceiling).reading.receive length = (.error code, rest) :=
    congrArg (Script.receive length) hr
  obtain ⟨t, ht, htry⟩ := tryReceive_eq hcall
  refine ⟨t, ht, ?_⟩
  rw [receiveExact_of_ready hr id hn, htry]
  exact if_pos again

theorem receiveExact_of_interrupted {s : Socket} {rest : Script} {ceiling length : Nat}
    (hr : s.reading = .poll 4 :: rest) (hn : length ≠ 0) :
    ∃ t : Socket, t.reading = rest ∧
      s.receiveExact ceiling length = t.receiveExact ceiling length := by
  refine ⟨{ s with reading := rest, calls := s.calls + 1 }, rfl, ?_⟩
  have hwait : s.awaitReadable ceiling =
      { s with reading := rest, calls := s.calls + 1 : Socket }.awaitReadable ceiling := by
    simp only [awaitReadable, hr, Script.await, Errno.interrupted, if_true, Nat.add_assoc,
      Nat.add_comm 1]
  rw [receiveExact_eq, if_neg hn, hwait, receiveExact_eq (Socket.mk ..), if_neg hn]

theorem receiveExact_of_long_chunk {s : Socket} {b : UInt8} {bs : List UInt8} {rest : Script}
    {length : Nat} (ceiling : Nat) (hr : s.reading = .data (b :: bs) :: rest) (hn : length ≠ 0)
    (hlong : length < (b :: bs).length) :
    ∃ t : Socket, t.reading = .data ((b :: bs).drop length) :: rest ∧
      s.receiveExact ceiling length = (.ok ((b :: bs).take length), t) := by
  have hcall : (s.afterWait ceiling).reading.receive length =
      (.ok ((b :: bs).take length), .data ((b :: bs).drop length) :: rest) := by
    change s.reading.receive length = _
    rw [hr, Script.receive, if_neg (by omega)]
  obtain ⟨t, ht, htry⟩ := tryReceive_eq hcall
  refine ⟨t, ht, ?_⟩
  obtain ⟨n, rfl⟩ := Nat.exists_eq_succ_of_ne_zero hn
  have hnone : n + 1 - (b :: bs.take n).length = 0 := by
    simp only [List.length_cons, List.length_take] at hlong ⊢
    omega
  rw [receiveExact_of_ready hr id hn, htry]
  simp only [Nat.succ_eq_add_one, List.take_succ_cons, hnone, receiveExact_eq t ceiling 0, if_true,
    List.append_nil]

theorem receiveExact_of_short_chunk {s : Socket} {b : UInt8} {bs : List UInt8} {rest : Script}
    {length : Nat} (ceiling : Nat) (hr : s.reading = .data (b :: bs) :: rest)
    (hshort : (b :: bs).length ≤ length) :
    ∃ t : Socket, t.reading = rest ∧ s.receiveExact ceiling length =
      match t.receiveExact ceiling (length - (b :: bs).length) with
      | (.ok more, u) => (.ok (b :: bs ++ more), u)
      | (.error e, u) => (.error e, u) := by
  have hcall : (s.afterWait ceiling).reading.receive length = (.ok (b :: bs), rest) := by
    change s.reading.receive length = _
    rw [hr, Script.receive, if_pos hshort]
  obtain ⟨t, ht, htry⟩ := tryReceive_eq hcall
  refine ⟨t, ht, ?_⟩
  rw [receiveExact_of_ready hr id (by rw [List.length_cons] at hshort; omega), htry]

theorem receiveExact_of_eof {s : Socket} {rest : Script} {ceiling length : Nat}
    (hr : s.reading = .eof :: rest) (hn : length ≠ 0) :
    (s.receiveExact ceiling length).1 = .error .peerClosed := by
  have hcall : (s.afterWait ceiling).reading.receive length = (.ok [], .eof :: rest) :=
    congrArg (Script.receive length) hr
  obtain ⟨t, -, htry⟩ := tryReceive_eq hcall
  rw [receiveExact_of_ready hr id hn, htry]

theorem receiveExact_of_unready {s : Socket} {ceiling length : Nat} {e : WaitFailure}
    (h : (Script.await .timedOut s.reading).1 = .error e) (hn : length ≠ 0) :
    (s.receiveExact ceiling length).1 = .error (ofWait e) := by
  have hwait : s.awaitReadable ceiling = (.error e, (s.awaitReadable ceiling).2) :=
    Prod.ext h rfl
  rw [receiveExact_eq, if_neg hn, hwait]

theorem receiveExact_of_failed {s : Socket} {rest : Script} {code ceiling length : Nat}
    (hr : s.reading = .errno code :: rest) (hfail : ¬Script.Retried code) (hn : length ≠ 0) :
    (s.receiveExact ceiling length).1 = .error (.ofErrno code) := by
  have hcall : (s.afterWait ceiling).reading.receive length = (.error code, rest) :=
    congrArg (Script.receive length) hr
  obtain ⟨t, -, htry⟩ := tryReceive_eq hcall
  rw [receiveExact_of_ready hr id hn, htry]
  exact congrArg Prod.fst (if_neg hfail)

theorem receiveExact_of_stops {s : Socket} {e : RouteError} {ceiling length : Nat}
    (h : s.reading.Stops e) (hn : length ≠ 0) :
    (s.receiveExact ceiling length).1 = .error e := by
  generalize hr : s.reading = script at h
  cases h with
  | closed rest => exact receiveExact_of_eof hr hn
  | silent => exact receiveExact_of_unready (by rw [hr]; rfl) hn
  | stalled rest => exact receiveExact_of_unready (by rw [hr]; rfl) hn
  | failed hfail hmeans rest =>
      obtain rfl := hmeans.eq_ofErrno
      exact receiveExact_of_failed hr hfail hn
  | unready hwait hmeans rest =>
      obtain rfl := hmeans.eq_ofErrno
      obtain ⟨calls, hawait⟩ := Script.await_fails hwait .timedOut rest
      exact receiveExact_of_unready (e := .errno _) (by rw [hr, hawait]) hn

/-- How a call ends that asks for so many bytes of a peer when these come first and then this. -/
structure Reception (rest : Script) (bytes : List UInt8) (length : Nat)
    (result : Except RouteError (List UInt8) × Socket) : Prop where
  answer : length ≤ bytes.length → result.1 = .ok (bytes.take length)
  left : length ≤ bytes.length →
    ∃ chunks, Script.Brings chunks (bytes.drop length) ∧ result.2.reading = chunks ++ rest
  short : bytes.length < length → ∀ e, rest.Stops e → result.1 = .error e

theorem reception_zero {s : Socket} {chunks rest : Script} {bytes : List UInt8}
    (hs : s.reading = chunks ++ rest) (h : chunks.Brings bytes) (ceiling : Nat) :
    Reception rest bytes 0 (s.receiveExact ceiling 0) := by
  rw [receiveExact_eq, if_pos rfl]
  exact ⟨fun _ => rfl, fun _ => ⟨chunks, h, hs⟩, fun hlt => absurd hlt (Nat.not_lt_zero _)⟩

theorem reception_of_short_chunk {rest : Script} {chunk more : List UInt8} {length : Nat}
    {result : Except RouteError (List UInt8) × Socket} (hshort : chunk.length ≤ length) :
    Reception rest more (length - chunk.length) result →
    Reception rest (chunk ++ more) length
      (match result with
      | (.ok more, u) => (.ok (chunk ++ more), u)
      | (.error e, u) => (.error e, u)) := by
  intro h
  obtain ⟨answer, u⟩ := result
  by_cases hle : length ≤ (chunk ++ more).length
  · have hmore : length - chunk.length ≤ more.length := by
      rw [List.length_append] at hle
      omega
    obtain rfl := h.answer hmore
    refine ⟨fun _ => ?_, fun _ => ?_, fun hlt => absurd hlt (Nat.not_lt.2 hle)⟩
    · rw [List.take_append, List.take_of_length_le hshort]
    · rw [List.drop_append, List.drop_of_length_le hshort]
      exact h.left hmore
  · have hmore : more.length < length - chunk.length := by
      rw [List.length_append] at hle
      omega
    refine ⟨fun hge => absurd hge hle, fun hge => absurd hge hle, fun _ e he => ?_⟩
    obtain rfl := h.short hmore e he
    rfl

/-- What a peer sends is received from the front, and only what comes behind it makes a call
fail. -/
theorem reception_of_brings {s : Socket} {chunks rest : Script} {bytes : List UInt8}
    (hs : s.reading = chunks ++ rest) (h : chunks.Brings bytes) (ceiling length : Nat) :
    Reception rest bytes length (s.receiveExact ceiling length) := by
  -- A call for nothing looks at no event, so the induction on the events is for the others.
  by_cases hn : length = 0
  · rw [hn]
    exact reception_zero hs h ceiling
  induction h generalizing s length with
  | nothing =>
      have hpos := Nat.pos_of_ne_zero hn
      exact ⟨fun hle => absurd hpos (Nat.not_lt.2 hle), fun hle => absurd hpos (Nat.not_lt.2 hle),
        fun _ e he => receiveExact_of_stops (hs ▸ he) hn⟩
  | @chunk chunks b bs more next ih =>
      rw [List.cons_append] at hs
      by_cases hshort : (b :: bs).length ≤ length
      · obtain ⟨t, ht, heq⟩ := receiveExact_of_short_chunk ceiling hs hshort
        have hrest : Reception rest more (length - (b :: bs).length)
            (t.receiveExact ceiling (length - (b :: bs).length)) := by
          by_cases hz : length - (b :: bs).length = 0
          · rw [hz]
            exact reception_zero ht next ceiling
          · exact ih ht _ hz
        rw [heq]
        exact reception_of_short_chunk hshort hrest
      · have hlong := Nat.not_le.1 hshort
        obtain ⟨t, ht, heq⟩ := receiveExact_of_long_chunk ceiling hs hn hlong
        rw [heq]
        have hle : length ≤ (b :: bs ++ more).length := by
          rw [List.length_append]
          omega
        refine ⟨fun _ => ?_, fun _ => ?_, fun hlt => absurd hlt (Nat.not_lt.2 hle)⟩
        · rw [List.take_append_of_le_length (Nat.le_of_lt hlong)]
        · rw [List.drop_append_of_le_length (Nat.le_of_lt hlong)]
          have hleft : 0 < ((b :: bs).drop length).length := by
            rw [List.length_drop]
            omega
          obtain ⟨c, cs, hcut⟩ := List.exists_cons_of_length_pos hleft
          rw [hcut] at ht ⊢
          exact ⟨_, .chunk next, ht⟩
  | retry again next ih =>
      obtain ⟨t, ht, heq⟩ := receiveExact_of_retry hs again hn
      rw [heq]
      exact ih ht length hn
  | interrupted next ih =>
      obtain ⟨t, ht, heq⟩ := receiveExact_of_interrupted hs hn
      rw [heq]
      exact ih ht length hn

/-- How a call ends that asks for so many bytes of a peer when these are still to come from it. -/
structure Receipt (ending : Ending) (bytes : List UInt8) (length : Nat)
    (result : Except RouteError (List UInt8) × Socket) : Prop where
  answer : length ≤ bytes.length → result.1 = .ok (bytes.take length)
  rest : length ≤ bytes.length → Script.Delivers ending result.2.reading (bytes.drop length)
  short : bytes.length < length → result.1 = .error ending.error

theorem receipt_of_delivers {ending : Ending} {s : Socket} {bytes : List UInt8}
    (h : Script.Delivers ending s.reading bytes) (ceiling length : Nat) :
    Receipt ending bytes length (s.receiveExact ceiling length) := by
  obtain ⟨chunks, rest, hs, hchunks, hstops, hrest⟩ := h.split
  have hreception := reception_of_brings hs hchunks ceiling length
  refine ⟨hreception.answer, fun hle => ?_, fun hlt => hreception.short hlt _ hstops⟩
  obtain ⟨left, hleft, hreading⟩ := hreception.left hle
  rw [hreading]
  exact hleft.delivers hrest

/-- How many bytes calls of these lengths take. -/
def wanted : List Nat → Nat
  | [] => 0
  | length :: lengths => length + wanted lengths

def slices : List Nat → List UInt8 → List (List UInt8)
  | [], _ => []
  | length :: lengths, bytes => bytes.take length :: slices lengths (bytes.drop length)

theorem map_length_slices {lengths : List Nat} {bytes : List UInt8}
    (h : wanted lengths ≤ bytes.length) : (slices lengths bytes).map List.length = lengths := by
  induction lengths generalizing bytes with
  | nil => rfl
  | cons length lengths ih =>
      rw [wanted] at h
      have hrest : wanted lengths ≤ (bytes.drop length).length := by
        rw [List.length_drop]
        omega
      rw [slices, List.map_cons, ih hrest, List.length_take, Nat.min_eq_left (by omega)]

theorem flatten_slices (lengths : List Nat) (bytes : List UInt8) :
    (slices lengths bytes).flatten = bytes.take (wanted lengths) := by
  induction lengths generalizing bytes with
  | nil => rfl
  | cons length lengths ih => rw [slices, List.flatten_cons, ih, wanted, List.take_add]

theorem runAll_of_brings {s : Socket} {chunks rest : Script} {bytes : List UInt8}
    (hs : s.reading = chunks ++ rest) (h : chunks.Brings bytes) (ceiling : Nat)
    {lengths : List Nat} (hle : wanted lengths ≤ bytes.length) :
    (runAll (·.receiveExact ceiling ·) s lengths).1 = (slices lengths bytes).map .ok ∧
      ∃ left, Script.Brings left (bytes.drop (wanted lengths)) ∧
        (runAll (·.receiveExact ceiling ·) s lengths).2.reading = left ++ rest := by
  induction lengths generalizing s chunks bytes with
  | nil => exact ⟨rfl, chunks, h, hs⟩
  | cons length lengths ih =>
      rw [wanted] at hle
      have hreception := reception_of_brings hs h ceiling length
      have hfirst : length ≤ bytes.length := Nat.le_trans (Nat.le_add_right ..) hle
      have hanswer := hreception.answer hfirst
      obtain ⟨left, hleft, hreading⟩ := hreception.left hfirst
      have hmore : wanted lengths ≤ (bytes.drop length).length := by
        rw [List.length_drop]
        omega
      obtain ⟨hanswers, last, hlast, hend⟩ := ih hreading hleft hmore
      rw [List.drop_drop] at hlast
      simp only [runAll, slices, wanted, List.map_cons, hanswer, hanswers]
      exact ⟨trivial, last, hlast, hend⟩

/-- One call after another, of whatever lengths, receives what a peer delivers in order. -/
theorem runAll_receiveExact {ending : Ending} {s : Socket} {bytes : List UInt8}
    (h : Script.Delivers ending s.reading bytes) (ceiling : Nat) {lengths : List Nat}
    (hle : wanted lengths ≤ bytes.length) :
    (runAll (·.receiveExact ceiling ·) s lengths).1 = (slices lengths bytes).map .ok ∧
      Script.Delivers ending (runAll (·.receiveExact ceiling ·) s lengths).2.reading
        (bytes.drop (wanted lengths)) := by
  obtain ⟨chunks, rest, hs, hchunks, -, hrest⟩ := h.split
  obtain ⟨hanswers, left, hleft, hreading⟩ := runAll_of_brings hs hchunks ceiling hle
  refine ⟨hanswers, ?_⟩
  rw [hreading]
  exact hleft.delivers hrest

/-- Calls one after another receive consecutive slices of the bytes a peer sends, of the lengths
asked for and whatever the chunks, and leave the rest to come. The call that finds too little fails
as the event says that comes next. A call for nothing does nothing. -/
theorem runAll_receiveExact_slices {s : Socket} {chunks rest : Script} {bytes : List UInt8}
    (hs : s.reading = chunks ++ rest) (h : chunks.Brings bytes) (ceiling : Nat) :
    (∀ lengths, wanted lengths ≤ bytes.length →
      (runAll (·.receiveExact ceiling ·) s lengths).1 = (slices lengths bytes).map .ok ∧
        (slices lengths bytes).map List.length = lengths ∧
        (slices lengths bytes).flatten = bytes.take (wanted lengths) ∧
        ∃ left, Script.Brings left (bytes.drop (wanted lengths)) ∧
          (runAll (·.receiveExact ceiling ·) s lengths).2.reading = left ++ rest) ∧
    (∀ lengths length e, wanted lengths ≤ bytes.length →
      bytes.length < wanted lengths + length → rest.Stops e →
      (runAll (·.receiveExact ceiling ·) s (lengths ++ [length])).1 =
        (slices lengths bytes).map .ok ++ [.error e]) ∧
    ∀ t : Socket, t.receiveExact ceiling 0 = (.ok [], t) := by
  refine ⟨fun lengths hle => ?_, fun lengths length e hle hlt he => ?_, fun t => ?_⟩
  · obtain ⟨hanswers, hleft⟩ := runAll_of_brings hs h ceiling hle
    exact ⟨hanswers, map_length_slices hle, flatten_slices lengths bytes, hleft⟩
  · obtain ⟨hanswers, left, hleft, hreading⟩ := runAll_of_brings hs h ceiling hle
    have hshort : (bytes.drop (wanted lengths)).length < length := by
      rw [List.length_drop]
      omega
    have hlast := (reception_of_brings hreading hleft ceiling length).short hshort e he
    rw [answers_runAll_concat, hanswers, hlast]
  · rw [receiveExact_eq, if_pos rfl]

/-- A peer cuts six bytes at odd places, is interrupted and then is out of reach. -/
def lostSocket : Socket where
  reading := [.data [1], .errno 4, .data [2, 3, 4], .poll 4, .errno 11, .data [5, 6]] ++
    [.soError 113]

theorem runAll_receiveExact_slices_lost :
    (runAll (·.receiveExact 10 ·) lostSocket [2, 0, 3, 2]).1 =
      [.ok [1, 2], .ok [], .ok [3, 4, 5], .error (.dialUnreachable (.system (.numbered 113)))] := by
  have hbrings : Script.Brings [.data [1], .errno 4, .data [2, 3, 4], .poll 4, .errno 11,
      .data [5, 6]] [1, 2, 3, 4, 5, 6] :=
    .chunk (.retry (.inl rfl) (.chunk (.interrupted (.retry (.inr rfl) (.chunk .nothing)))))
  have hstops : Script.Stops [.soError 113] (.dialUnreachable (.system (.numbered 113))) :=
    .unready (.pending (by decide)) .hostUnreachable []
  obtain ⟨-, hshort, -⟩ := runAll_receiveExact_slices (s := lostSocket) rfl hbrings 10
  exact hshort [2, 0, 3] 2 _ (by decide) (by decide) hstops

end Socket

end Egress
