import Egress.Journal
import Egress.Proofs.Run
import Mathlib.Data.List.Induction

/-!
Errors over time. An error line is let through exactly if the lines of its category that were let
through before it are a second old. Lines that were held back and lines of other categories play no
part in that, so however many errors there are, the lines of a category keep their distance, and a
category that was silent for a second is heard again.
-/

namespace Egress

structure Complaint where
  category : ErrorCategory
  time : Nat
  message : String
deriving DecidableEq

namespace Journal

def hear (j : Journal) (c : Complaint) : Bool × Journal :=
  j.limitedError c.time c.category c.message

/-- Complaints in the order they were made, each with whether it was let through. -/
def heard (j : Journal) (complaints : List Complaint) : List (Complaint × Bool) :=
  complaints.zip (runAll hear j complaints).1

/-- The journal after some complaints. -/
def afterAll (j : Journal) (complaints : List Complaint) : Journal :=
  (runAll hear j complaints).2

variable (j : Journal)

theorem limiter_log (level : Level) (message : String) :
    (j.log level message).limiter = j.limiter := by
  unfold log deliver
  split
  · rfl
  · split
    · rfl
    · split <;> rfl

/-- The limiter alone decides, and it learns of every complaint, whoever reads the journal. -/
theorem hear_eq_pass (c : Complaint) :
    (j.hear c).1 = (j.limiter.pass c.category c.time).1 ∧
      (j.hear c).2.limiter = (j.limiter.pass c.category c.time).2 := by
  cases hpass : j.limiter.pass c.category c.time with
  | mk passed limiter =>
      cases passed with
      | false =>
          have hsame : (j.limiter.pass c.category c.time).2 = j.limiter := by
            unfold Limiter.pass at hpass ⊢
            split
            · rfl
            · rename_i hold
              rw [if_neg hold] at hpass
              cases hpass
          rw [hpass] at hsame
          simp only [hear, limitedError, hpass]
          exact ⟨trivial, hsame.symm⟩
      | true =>
          simp only [hear, limitedError, hpass, limiter_log]
          exact ⟨trivial, trivial⟩

/-- A complaint that is held back leaves nothing behind. -/
theorem hear_of_suppressed {c : Complaint} (h : (j.hear c).1 = false) : (j.hear c).2 = j := by
  unfold hear limitedError at h ⊢
  split
  · rfl
  · rename_i hpass
    rw [hpass] at h
    cases h

theorem heard_append (front back : List Complaint) :
    j.heard (front ++ back) = j.heard front ++ (j.afterAll front).heard back := by
  induction front generalizing j with
  | nil => rfl
  | cons c front ih => exact congrArg ((c, (j.hear c).1) :: ·) (ih (j.hear c).2)

theorem heard_cons (c : Complaint) (back : List Complaint) :
    j.heard (c :: back) = (c, (j.hear c).1) :: (j.hear c).2.heard back := rfl

theorem heard_concat (front : List Complaint) (c : Complaint) :
    j.heard (front ++ [c]) = j.heard front ++ [(c, ((j.afterAll front).hear c).1)] :=
  j.heard_append front [c]

theorem map_fst_heard (complaints : List Complaint) :
    (j.heard complaints).map Prod.fst = complaints := by
  induction complaints generalizing j with
  | nil => rfl
  | cons c complaints ih => exact congrArg (c :: ·) (ih (j.hear c).2)

/-- What was heard up to some point is what is heard if nothing comes after it. -/
theorem heard_split {complaints : List Complaint} {before after : List (Complaint × Bool)}
    {c : Complaint} {passed : Bool} (h : j.heard complaints = before ++ (c, passed) :: after) :
    complaints = before.map Prod.fst ++ c :: after.map Prod.fst ∧
      before = j.heard (before.map Prod.fst) ∧
      passed = ((j.afterAll (before.map Prod.fst)).hear c).1 ∧
      after = ((j.afterAll (before.map Prod.fst)).hear c).2.heard (after.map Prod.fst) := by
  have hcomplaints : complaints = before.map Prod.fst ++ c :: after.map Prod.fst := by
    rw [← j.map_fst_heard complaints, h, List.map_append, List.map_cons]
  have hlength : before.length = (j.heard (before.map Prod.fst)).length := by
    have hsame := congrArg List.length (j.map_fst_heard (before.map Prod.fst))
    rw [List.length_map, List.length_map] at hsame
    exact hsame.symm
  rw [hcomplaints, heard_append, heard_cons] at h
  obtain ⟨hbefore, hrest⟩ := List.append_inj h.symm hlength
  obtain ⟨hhead, hafter⟩ := List.cons.inj hrest
  exact ⟨hcomplaints, hbefore, congrArg Prod.snd hhead, hafter⟩

end Journal

namespace Limiter

/-- The limiter lets a line through exactly if those of its category that were let through are old
enough. -/
def Follows (l : Limiter) (history : List (Complaint × Bool)) : Prop :=
  ∀ category now, interval ≤ now →
    ((l.pass category now).1 = true ↔
      ∀ d, (d, true) ∈ history → d.category = category → d.time + interval ≤ now)

theorem interval_pos : 0 < interval := by decide

theorem pass_eq_true (l : Limiter) (category : ErrorCategory) (now : Nat) :
    (l.pass category now).1 = true ↔ interval ≤ now - l.last category := by
  unfold pass
  split
  · exact iff_of_false Bool.false_ne_true (by omega)
  · exact iff_of_true rfl (by omega)

/-- A line that is let through is the youngest of its category, and the others are left alone. -/
theorem last_pass (l : Limiter) (category other : ErrorCategory) (now : Nat) :
    (l.pass category now).2.last other =
      if (l.pass category now).1 = true ∧ category = other then now else l.last other := by
  unfold pass
  split
  · simp
  · simp

theorem follows_new : Follows {} [] := by
  intro category now hnow
  have hzero : ({} : Limiter).last category = 0 := by cases category <;> rfl
  rw [pass_eq_true, hzero]
  exact iff_of_true hnow nofun

/-- One step of the limiter. All earlier lines of the category are older than the one that is let
through, so a later line that keeps the distance to this one keeps it to all of them. -/
theorem Follows.pass {l : Limiter} {history : List (Complaint × Bool)} (h : l.Follows history)
    {c : Complaint} (hc : interval ≤ c.time) :
    (l.pass c.category c.time).2.Follows
      (history ++ [(c, (l.pass c.category c.time).1)]) := by
  intro category now hnow
  have hbefore := h category now hnow
  rw [pass_eq_true] at hbefore
  rw [pass_eq_true, last_pass]
  cases hpassed : (l.pass c.category c.time).1 with
  | false => simpa using hbefore
  | true =>
      have hearlier := (h c.category c.time hc).1 hpassed
      simp only [true_and, List.mem_append, List.mem_singleton, Prod.mk.injEq, and_true]
      split
      · rename_i hsame
        constructor
        · rintro hdistance d (hd | rfl) hcategory
          · have := hearlier d hd (hcategory.trans hsame.symm)
            have := interval_pos
            omega
          · have := interval_pos
            omega
        · intro hall
          have := hall c (.inr rfl) hsame
          omega
      · rename_i hother
        rw [hbefore]
        constructor
        · rintro hall d (hd | rfl) hcategory
          · exact hall d hd hcategory
          · exact absurd hcategory hother
        · intro hall d hd hcategory
          exact hall d (.inl hd) hcategory

end Limiter

namespace Journal

variable (j : Journal) {complaints : List Complaint}

/-- The limiter follows what was heard, from the first complaint on. -/
theorem follows_heard (hfresh : j.limiter.Follows [])
    (hstart : ∀ c ∈ complaints, Limiter.interval ≤ c.time) :
    (j.afterAll complaints).limiter.Follows (j.heard complaints) := by
  induction complaints using List.reverseRecOn with
  | nil => exact hfresh
  | append_singleton complaints c ih =>
      obtain ⟨hbefore, hc⟩ := List.forall_mem_append.1 hstart
      rw [List.forall_mem_singleton] at hc
      obtain ⟨hanswer, hlimiter⟩ := (j.afterAll complaints).hear_eq_pass c
      have hlast : j.afterAll (complaints ++ [c]) = ((j.afterAll complaints).hear c).2 :=
        runAll_concat hear j complaints c
      rw [heard_concat, hlast, hanswer, hlimiter]
      exact (ih hbefore).pass hc

/-- The answer to one more complaint. -/
theorem hear_eq_true (hfresh : j.limiter.Follows [])
    (hstart : ∀ c ∈ complaints, Limiter.interval ≤ c.time) {c : Complaint}
    (hc : Limiter.interval ≤ c.time) :
    ((j.afterAll complaints).hear c).1 = true ↔
      ∀ d, (d, true) ∈ j.heard complaints → d.category = c.category →
        d.time + Limiter.interval ≤ c.time := by
  rw [((j.afterAll complaints).hear_eq_pass c).1]
  exact j.follows_heard hfresh hstart c.category c.time hc

theorem pairwise_heard (hfresh : j.limiter.Follows [])
    (hstart : ∀ c ∈ complaints, Limiter.interval ≤ c.time) :
    (j.heard complaints).Pairwise fun c d => c.2 = true → d.2 = true →
      c.1.category = d.1.category → c.1.time + Limiter.interval ≤ d.1.time := by
  induction complaints using List.reverseRecOn with
  | nil => exact .nil
  | append_singleton complaints c ih =>
      obtain ⟨hbefore, hc⟩ := List.forall_mem_append.1 hstart
      rw [List.forall_mem_singleton] at hc
      rw [heard_concat, List.pairwise_append]
      refine ⟨ih hbefore, List.pairwise_singleton _ _, ?_⟩
      rintro ⟨d, passed⟩ hd last hlast hpassed hlet hcategory
      obtain rfl := List.mem_singleton.1 hlast
      obtain rfl : passed = true := hpassed
      exact (j.hear_eq_true hfresh hbefore hc).1 hlet d hd hcategory

/-- Without a complaint that was held back everything else is heard as it was. -/
theorem heard_erase {before after : List (Complaint × Bool)} {c : Complaint}
    (h : j.heard complaints = before ++ (c, false) :: after) :
    j.heard (before.map Prod.fst ++ after.map Prod.fst) = before ++ after := by
  obtain ⟨-, hbefore, hanswer, hafter⟩ := j.heard_split h
  rw [hear_of_suppressed _ hanswer.symm] at hafter
  rw [heard_append, ← hbefore, ← hafter]

/-- The complaints of a category are heard as if there were no others. -/
theorem heard_filter (hfresh : j.limiter.Follows [])
    (hstart : ∀ c ∈ complaints, Limiter.interval ≤ c.time) (category : ErrorCategory) :
    j.heard (complaints.filter (·.category = category)) =
      (j.heard complaints).filter (·.1.category = category) := by
  induction complaints using List.reverseRecOn with
  | nil => rfl
  | append_singleton complaints c ih =>
      obtain ⟨hbefore, hc⟩ := List.forall_mem_append.1 hstart
      rw [List.forall_mem_singleton] at hc
      have hfiltered : ∀ d ∈ complaints.filter (·.category = category),
          Limiter.interval ≤ d.time := fun d hd => hbefore d (List.mem_filter.1 hd).1
      rw [List.filter_append, heard_concat, List.filter_append]
      simp only [List.filter_cons, List.filter_nil, decide_eq_true_eq]
      by_cases hsame : c.category = category
      · have hanswer : ((j.afterAll (complaints.filter (·.category = category))).hear c).1 =
            ((j.afterAll complaints).hear c).1 := by
          rw [Bool.eq_iff_iff, j.hear_eq_true hfresh hfiltered hc, j.hear_eq_true hfresh hbefore hc,
            ih hbefore]
          simp only [List.mem_filter, decide_eq_true_eq]
          exact ⟨fun hall d hd hcategory => hall d ⟨hd, hcategory.trans hsame⟩ hcategory,
            fun hall d hd => hall d hd.1⟩
        simp only [hsame, if_true]
        rw [heard_concat, hanswer, ih hbefore]
      · simp only [hsame, if_false, List.append_nil]
        exact ih hbefore

/-- Errors are reported to a new journal, the first of them not before a second after the epoch; the
clock may even go back then. Each is let through exactly if no error of its category that was let
through before it is younger than a second, so those of a category that are let through keep that
distance. If an error that was held back is left out, all others are heard as they were, and if all
other categories are left out, so is what is left. -/
theorem heard_by_accepted (hstart : ∀ c ∈ complaints, 1000 ≤ c.time) :
    let heard := ({ j with limiter := {} } : Journal).heard
    (heard complaints).map Prod.fst = complaints ∧
    (∀ before c passed after, heard complaints = before ++ (c, passed) :: after →
      (passed = true ↔
        ¬∃ d, (d, true) ∈ before ∧ d.category = c.category ∧ c.time - 1000 < d.time)) ∧
    ((heard complaints).Pairwise fun c d => c.2 = true → d.2 = true →
      c.1.category = d.1.category → c.1.time + 1000 ≤ d.1.time) ∧
    (∀ before c after, heard complaints = before ++ (c, false) :: after →
      heard (before.map Prod.fst ++ after.map Prod.fst) = before ++ after) ∧
    ∀ category, heard (complaints.filter (·.category = category)) =
      (heard complaints).filter (·.1.category = category) := by
  intro heard
  have hfresh : ({ j with limiter := {} } : Journal).limiter.Follows [] := Limiter.follows_new
  refine ⟨map_fst_heard _ complaints, fun before c passed after hsplit => ?_,
    pairwise_heard _ hfresh hstart, fun before c after => heard_erase _,
    heard_filter _ hfresh hstart⟩
  obtain ⟨hcomplaints, hbefore, rfl, -⟩ := heard_split _ hsplit
  have hearlier : ∀ d ∈ before.map Prod.fst, Limiter.interval ≤ d.time := fun d hd =>
    hstart d (hcomplaints ▸ List.mem_append_left _ hd)
  have hc : Limiter.interval ≤ c.time :=
    hstart c (hcomplaints ▸ List.mem_append_right _ List.mem_cons_self)
  have hinterval : Limiter.interval = 1000 := rfl
  rw [hear_eq_true _ hfresh hearlier hc, ← hbefore]
  constructor
  · rintro hall ⟨d, hd, hcategory, hyoung⟩
    have := hall d hd hcategory
    omega
  · intro hnone d hd hcategory
    by_contra hyoung
    exact hnone ⟨d, hd, hcategory, by omega⟩

/-- A second after a line the next one passes; what was held back in between does not delay it, and
neither does another category. -/
theorem heard_by_accepted_boundary :
    let first : Complaint := ⟨.directDial, 1000, "a"⟩
    let second : Complaint := ⟨.directDial, 1999, "b"⟩
    let other : Complaint := ⟨.policy, 1999, "c"⟩
    let third : Complaint := ⟨.directDial, 2000, "d"⟩
    let heard := ({ processId := 1 } : Journal).heard
    (∀ c ∈ [first, second, other, third], 1000 ≤ c.time) ∧
      heard [first, second, other, third] =
        [(first, true), (second, false), (other, true), (third, true)] ∧
      heard [first, other, third] = [(first, true), (other, true), (third, true)] := by
  intro first second other third heard
  have hstart : ∀ c ∈ [first, second, other, third], 1000 ≤ c.time := by decide
  have hall : heard [first, second, other, third] =
      [(first, true), (second, false), (other, true), (third, true)] := by decide +kernel
  obtain ⟨-, -, -, herase, -⟩ := heard_by_accepted { processId := 1 } hstart
  exact ⟨hstart, hall, herase [(first, true)] second [(other, true), (third, true)] hall⟩

end Journal

end Egress
