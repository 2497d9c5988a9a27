import Mathlib.Data.List.Basic

/-!
Deterministic machines fed with a list of inputs. A run is a left fold of the
step function, so a statement about every reachable state is a statement about
every input list. `Along` is the one notion the fold does not give: a
condition on each step together with the state in which that step is taken.
-/

namespace DdsOrchestrator.Machine

variable {σ ι : Type*} (step : σ → ι → σ)

/-- Every step of the run from `s` on `is` meets `C` in the state it is taken
from. -/
def Along (C : σ → ι → Prop) : σ → List ι → Prop
  | _, [] => True
  | s, i :: is => C s i ∧ Along C (step s i) is

variable {step} {C D : σ → ι → Prop} {s : σ} {is js : List ι} {i : ι}

@[simp] theorem along_nil : Along step C s [] := trivial

@[simp] theorem along_cons :
    Along step C s (i :: is) ↔ C s i ∧ Along step C (step s i) is := Iff.rfl

instance decidableAlong [∀ s i, Decidable (C s i)] :
    ∀ (is : List ι) (s : σ), Decidable (Along step C s is)
  | [], _ => .isTrue trivial
  | i :: is, s =>
    have : Decidable (Along step C (step s i) is) := decidableAlong is (step s i)
    inferInstanceAs (Decidable (C s i ∧ Along step C (step s i) is))

theorem along_append :
    Along step C s (is ++ js) ↔
      Along step C s is ∧ Along step C (is.foldl step s) js := by
  induction is generalizing s with
  | nil => simp
  | cons i is ih => simp [ih, and_assoc]

theorem along_concat :
    Along step C s (is ++ [i]) ↔
      Along step C s is ∧ C (is.foldl step s) i := by
  simp [along_append]

theorem Along.mono (h : Along step C s is) (himp : ∀ t j, C t j → D t j) :
    Along step D s is := by
  induction is generalizing s with
  | nil => trivial
  | cons i is ih => exact ⟨himp _ _ h.1, ih h.2⟩

theorem Along.and (h : Along step C s is) (h' : Along step D s is) :
    Along step (fun t j => C t j ∧ D t j) s is := by
  induction is generalizing s with
  | nil => trivial
  | cons i is ih => exact ⟨⟨h.1, h'.1⟩, ih h.2 h'.2⟩

/-- The condition holds wherever the run is cut. -/
theorem along_iff_forall : Along step C s is ↔
    ∀ before i after, is = before ++ i :: after → C (before.foldl step s) i := by
  constructor
  · rintro hrun before i after rfl
    rw [along_append, along_cons] at hrun
    exact hrun.2.1
  · intro h
    induction is generalizing s with
    | nil => trivial
    | cons i is ih =>
        refine ⟨h [] i is rfl, ih ?_⟩
        rintro before j after rfl
        exact h (i :: before) j after rfl

/-- The invariant rule: what holds at the start and is kept by every step that
meets the condition holds at the end of the run. -/
theorem Along.invariant {I : σ → Prop} (hrun : Along step C s is) (hs : I s)
    (hstep : ∀ t j, I t → C t j → I (step t j)) : I (is.foldl step s) := by
  induction is generalizing s with
  | nil => exact hs
  | cons i is ih => exact ih hrun.2 (hstep s i hs hrun.1)

/-- A condition that follows from another one and an invariant holds along the
run as well. -/
theorem Along.of_invariant {I : σ → Prop} (hrun : Along step C s is) (hs : I s)
    (hstep : ∀ t j, I t → C t j → I (step t j)) (himp : ∀ t j, I t → C t j → D t j) :
    Along step D s is := by
  induction is generalizing s with
  | nil => trivial
  | cons i is ih => exact ⟨himp s i hs hrun.1, ih hrun.2 (hstep s i hs hrun.1)⟩

/-- A state property holds after every part of a run exactly if every step meets the
condition that keeps it, given an invariant of all runs. -/
theorem along_iff_prefixes {I J : σ → Prop} (hs : I s) (hJ : J s)
    (hinv : ∀ t j, J t → J (step t j)) (hstep : ∀ t j, J t → I t → (I (step t j) ↔ C t j)) :
    (∀ before after, is = before ++ after → I (before.foldl step s)) ↔ Along step C s is := by
  constructor
  · intro h
    induction is generalizing s with
    | nil => trivial
    | cons i is ih =>
        have hfirst : I (step s i) := h [i] is rfl
        refine ⟨(hstep s i hJ hs).mp hfirst, ih hfirst (hinv s i hJ) ?_⟩
        rintro before after rfl
        exact h (i :: before) after rfl
  · rintro hrun before after rfl
    rw [along_append] at hrun
    have hboth := hrun.1.invariant (I := fun t => I t ∧ J t) ⟨hs, hJ⟩
      fun t j ht hj => ⟨(hstep t j ht.2 ht.1).mpr hj, hinv t j ht.2⟩
    exact hboth.1

/-- A condition without which a step breaks a property of the states holds along a run on
which the property is never broken. -/
theorem along_of_prefixes {I P : σ → Prop} (hs : I s)
    (hP : ∀ before after, is = before ++ after → P (before.foldl step s))
    (hcond : ∀ t j, I t → P (step t j) → C t j) (hstep : ∀ t j, I t → C t j → I (step t j)) :
    Along step C s is := by
  induction is generalizing s with
  | nil => trivial
  | cons i is ih =>
      have hi : C s i := hcond s i hs (hP [i] is rfl)
      refine ⟨hi, ih (hstep s i hs hi) ?_⟩
      rintro before after rfl
      exact hP (i :: before) after rfl

/-- The invariant rule for runs on which no condition is imposed. -/
theorem foldl_invariant {I : σ → Prop} (is : List ι) (hs : I s)
    (hstep : ∀ t j, I t → I (step t j)) : I (is.foldl step s) := by
  induction is generalizing s with
  | nil => exact hs
  | cons i is ih => exact ih (hstep s i hs)

/-- What does not hold at the start and holds at the end has been brought about by a step. -/
theorem exists_step_of_not {Q : σ → Prop} (hs : ¬ Q s) (h : Q (is.foldl step s)) :
    ∃ before i after, is = before ++ i :: after ∧ ¬ Q (before.foldl step s) ∧
      Q (step (before.foldl step s) i) := by
  by_contra hnone
  have hrun : Along step (fun t j => ¬ Q t → ¬ Q (step t j)) s is :=
    along_iff_forall.mpr fun before i after heq hbefore hafter =>
      hnone ⟨before, i, after, heq, hbefore, hafter⟩
  exact hrun.invariant (I := fun t => ¬ Q t) hs (fun t j ht hj => hj ht) h

/-- What the steps of a run show, each in the state it is taken from. -/
def trace {β : Type*} (step : σ → ι → σ) (obs : σ → ι → List β) : σ → List ι → List β
  | _, [] => []
  | s, i :: is => obs s i ++ trace step obs (step s i) is

theorem trace_append {β : Type*} {obs : σ → ι → List β} :
    trace step obs s (is ++ js) =
      trace step obs s is ++ trace step obs (is.foldl step s) js := by
  induction is generalizing s with
  | nil => rfl
  | cons i is ih => simp [trace, ih]

/-- What a run shows is shown by a step of it. -/
theorem mem_trace {β : Type*} {obs : σ → ι → List β} {b : β} :
    b ∈ trace step obs s is ↔
      ∃ before i after, is = before ++ i :: after ∧ b ∈ obs (before.foldl step s) i := by
  constructor
  · intro h
    induction is generalizing s with
    | nil => cases h
    | cons i is ih =>
        rcases List.mem_append.mp h with hfirst | hlater
        · exact ⟨[], i, is, rfl, hfirst⟩
        · obtain ⟨before, j, after, rfl, hb⟩ := ih hlater
          exact ⟨i :: before, j, after, rfl, hb⟩
  · rintro ⟨before, i, after, rfl, hb⟩
    induction before generalizing s with
    | nil => exact List.mem_append_left _ hb
    | cons j before ih => exact List.mem_append_right _ (ih hb)

/-- The invariant rule with an account of what the run has shown so far. -/
theorem Along.trace_invariant {β : Type*} {obs : σ → ι → List β} {I : List β → σ → Prop}
    {bs : List β} (hrun : Along step C s is) (hs : I bs s)
    (hstep : ∀ cs t j, I cs t → C t j → I (cs ++ obs t j) (step t j)) :
    I (bs ++ trace step obs s is) (is.foldl step s) := by
  induction is generalizing s bs with
  | nil => simpa [trace] using hs
  | cons i is ih =>
      rw [trace, ← List.append_assoc]
      exact ih hrun.2 (hstep bs s i hs hrun.1)

/-- The same, where nothing has been shown before. -/
theorem Along.trace_invariant_nil {β : Type*} {obs : σ → ι → List β} {I : List β → σ → Prop}
    (hrun : Along step C s is) (hs : I [] s)
    (hstep : ∀ cs t j, I cs t → C t j → I (cs ++ obs t j) (step t j)) :
    I (trace step obs s is) (is.foldl step s) := by
  have h := hrun.trace_invariant hs hstep
  rwa [List.nil_append] at h

/-- The progress rule: a goal that stays reached, and until it is reached every
step lowers the measure, is reached within as many steps as the measure. -/
theorem Along.reaches {I Q : σ → Prop} (m : σ → Nat) (hrun : Along step C s is) (hs : I s)
    (hstep : ∀ t j, I t → C t j → I (step t j))
    (hkeep : ∀ t j, I t → C t j → Q t → Q (step t j))
    (hlower : ∀ t j, I t → C t j → ¬ Q t → m (step t j) < m t)
    (hzero : ∀ t, I t → m t = 0 → Q t) (hlen : m s ≤ is.length) : Q (is.foldl step s) := by
  induction is generalizing s with
  | nil => exact hzero s hs (by simpa using hlen)
  | cons i is ih =>
      obtain ⟨hi, hrest⟩ := hrun
      by_cases hQ : Q s
      · exact (hrest.invariant (I := fun t => I t ∧ Q t) ⟨hstep s i hs hi, hkeep s i hs hi hQ⟩
          fun t j ht hj => ⟨hstep t j ht.1 hj, hkeep t j ht.1 hj ht.2⟩).2
      · have hlt := hlower s i hs hi hQ
        rw [List.length_cons] at hlen
        exact ih hrest (hstep s i hs hi) (by omega)

/-- How many steps of the run are `p` steps. -/
def count (step : σ → ι → σ) (p : σ → ι → Bool) : σ → List ι → Nat
  | _, [] => 0
  | s, i :: is => (p s i).toNat + count step p (step s i) is

/-- The bound rule: a measure that no step raises and that every `p` step lowers bounds how
many of these there are. -/
theorem Along.count_le {p : σ → ι → Bool} {I : σ → Prop} (m : σ → Nat)
    (hrun : Along step C s is) (hs : I s) (hstep : ∀ t j, I t → I (step t j))
    (hle : ∀ t j, I t → C t j → m (step t j) ≤ m t)
    (hlt : ∀ t j, I t → C t j → p t j = true → m (step t j) < m t) :
    count step p s is ≤ m s := by
  induction is generalizing s with
  | nil => exact Nat.zero_le _
  | cons i is ih =>
      obtain ⟨hi, hrest⟩ := hrun
      have hcount := ih hrest (hstep s i hs)
      have hmeasure := hle s i hs hi
      rw [count]
      cases hp : p s i with
      | false =>
          rw [Bool.toNat_false]
          omega
      | true =>
          have := hlt s i hs hi hp
          rw [Bool.toNat_true]
          omega

/-- No two steps of the run are `P` steps. -/
def AtMostOnce (step : σ → ι → σ) (P : σ → ι → Prop) (s : σ) (is : List ι) : Prop :=
  ∀ before i between j after, is = before ++ i :: (between ++ j :: after) →
    P (before.foldl step s) i → ¬ P ((before ++ i :: between).foldl step s) j

/-- A step that sets a flag which is never cleared, and which rules the step
out, is taken at most once. -/
theorem atMostOnce_of_flag {P : σ → ι → Prop} {I Q : σ → Prop} (hrun : Along step C s is)
    (hs : I s) (hstep : ∀ t j, I t → C t j → I (step t j))
    (hset : ∀ t j, I t → C t j → P t j → Q (step t j)) (hkeep : ∀ t j, Q t → Q (step t j))
    (hexclude : ∀ t j, I t → C t j → Q t → ¬ P t j) : AtMostOnce step P s is := by
  rintro before i between j after rfl hi hj
  rw [along_append, along_cons, along_append, along_cons] at hrun
  obtain ⟨hbefore, hCi, hbetween, hCj, -⟩ := hrun
  have hI := hbefore.invariant hs hstep
  have hI' := hbetween.invariant (hstep _ _ hI hCi) hstep
  have hQ : Q (between.foldl step (step (before.foldl step s) i)) :=
    foldl_invariant between (hset _ _ hI hCi hi) hkeep
  rw [List.foldl_append, List.foldl_cons] at hj
  exact hexclude _ _ hI' hCj hQ hj

end DdsOrchestrator.Machine
