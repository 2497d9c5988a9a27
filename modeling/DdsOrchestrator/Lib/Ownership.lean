import Mathlib.Data.List.MinMax
import Mathlib.Logic.Function.Basic
import DdsOrchestrator.Lib.Assoc

/-!
One instance under exclusive ownership. Every writer has a queue of samples to each reader,
and a reader keeps of each writer the latest sample that has been delivered to it. A read
gives the sample of the strongest of these writers.

What a reader has seen of a writer does not go away again, so a read never falls back to a
weaker writer.
-/

namespace DdsOrchestrator.Ownership

variable {ω ρ σ κ : Type*}

structure Mesh (ω ρ σ : Type*) where
  views : ρ → Map ω σ
  /-- The samples on their way, the oldest first. -/
  inFlight : ω → ρ → List σ

namespace Mesh

def empty : Mesh ω ρ σ := { views := fun _ => ∅, inFlight := fun _ _ => [] }

/-- To all readers. -/
def send [DecidableEq ω] (w : ω) (s : σ) (m : Mesh ω ρ σ) : Mesh ω ρ σ :=
  { m with inFlight := fun v r => if v = w then m.inFlight v r ++ [s] else m.inFlight v r }

/-- The oldest sample of the writer arrives at the reader. -/
def deliver [DecidableEq ω] [DecidableEq ρ] (w : ω) (r : ρ) (m : Mesh ω ρ σ) : Mesh ω ρ σ :=
  match m.inFlight w r with
  | [] => m
  | s :: later =>
    { views := Function.update m.views r ((m.views r).insert w s)
      inFlight := Function.update m.inFlight w (Function.update (m.inFlight w) r later) }

/-- The sample of the strongest writer. -/
def read [LinearOrder κ] (rank : ω → κ) (r : ρ) (m : Mesh ω ρ σ) : Option σ :=
  ((m.views r).entries.argmax fun e => rank e.1).map Sigma.snd

/-- A sample of the writer has been delivered to the reader. -/
def Seen (w : ω) (r : ρ) (m : Mesh ω ρ σ) : Prop := w ∈ m.views r

theorem read_eq_some [DecidableEq ω] [LinearOrder κ] {rank : ω → κ} {r : ρ} {m : Mesh ω ρ σ} {s : σ}
    (h : m.read rank r = some s) :
    ∃ w, (m.views r).lookup w = some s ∧ ∀ v, m.Seen v r → rank v ≤ rank w := by
  simp only [read, Option.map_eq_some_iff] at h
  obtain ⟨⟨w, s'⟩, hmax, rfl⟩ := h
  refine ⟨w, Map.mem_entries.mp (List.argmax_mem hmax), fun v hv => ?_⟩
  obtain ⟨t, ht⟩ := Map.mem_iff_lookup.mp hv
  have hle := List.le_of_mem_argmax (f := fun e : Sigma fun _ : ω => σ => rank e.1)
    (Map.mem_entries.mpr ht) hmax
  exact hle

/-- The reader has a sample of the writer with the property, or one is on its way. -/
def Reaches (P : σ → Prop) (w : ω) (r : ρ) (m : Mesh ω ρ σ) : Prop :=
  m.Seen w r ∨ ∃ s ∈ m.inFlight w r, P s

/-- What has reached a reader reaches it later on as well. -/
structure Later (P : σ → Prop) (m m' : Mesh ω ρ σ) : Prop where
  seen : ∀ w r, m.Seen w r → m'.Seen w r
  reaches : ∀ w r, m.Reaches P w r → m'.Reaches P w r

variable {P : σ → Prop} {m : Mesh ω ρ σ}

theorem Later.refl (m : Mesh ω ρ σ) : m.Later P m := ⟨fun _ _ h => h, fun _ _ h => h⟩

theorem later_send [DecidableEq ω] (w : ω) (s : σ) : m.Later P (m.send w s) where
  seen := fun v r h => h
  reaches := by
    rintro v r (h | ⟨t, ht, hP⟩)
    · exact .inl h
    · refine .inr ⟨t, ?_, hP⟩
      unfold send
      dsimp only
      split_ifs
      · exact List.mem_append_left _ ht
      · exact ht

theorem reaches_send [DecidableEq ω] (w : ω) {s : σ} (hP : P s) (r : ρ) :
    (m.send w s).Reaches P w r :=
  .inr ⟨s, by simp [send], hP⟩

theorem seen_of_reaches {w : ω} {r : ρ} (h : m.Reaches P w r)
    (hnone : ∀ s ∈ m.inFlight w r, ¬ P s) : m.Seen w r := by
  rcases h with h | ⟨s, hs, hP⟩
  · exact h
  · exact absurd hP (hnone s hs)

theorem later_deliver [DecidableEq ω] [DecidableEq ρ] (w : ω) (r : ρ) :
    m.Later P (m.deliver w r) := by
  unfold deliver
  split
  · exact .refl m
  next s later hqueue =>
    -- A sample moves from the queue into the view of the same reader, so nothing is unseen.
    have hseen : ∀ v q, m.Seen v q → v ∈ Function.update m.views r ((m.views r).insert w s) q := by
      intro v q h
      by_cases hq : q = r
      · subst hq
        rw [Function.update_self, AList.mem_insert]
        exact .inr h
      · rw [Function.update_of_ne hq]
        exact h
    refine ⟨hseen, ?_⟩
    rintro v q (h | ⟨t, ht, hP⟩)
    · exact .inl (hseen v q h)
    by_cases hv : v = w
    · subst hv
      by_cases hq : q = r
      · subst hq
        exact .inl (by simp [Seen])
      · exact .inr ⟨t, by simpa [hq] using ht, hP⟩
    · exact .inr ⟨t, by simpa [hv] using ht, hP⟩

/-- Every sample is one that its writer may write. -/
structure Written [DecidableEq ω] (W : ω → σ → Prop) (m : Mesh ω ρ σ) : Prop where
  views : ∀ w r s, (m.views r).lookup w = some s → W w s
  inFlight : ∀ w r, ∀ s ∈ m.inFlight w r, W w s

variable {W : ω → σ → Prop}

theorem written_empty [DecidableEq ω] : (empty : Mesh ω ρ σ).Written W where
  views := by simp [empty]
  inFlight := by simp [empty]

theorem Written.send [DecidableEq ω] (h : m.Written W) {w : ω} {s : σ} (hs : W w s) :
    (m.send w s).Written W where
  views := h.views
  inFlight := by
    intro v r t ht
    unfold Mesh.send at ht
    dsimp only at ht
    split_ifs at ht with hv
    · rcases List.mem_append.mp ht with ht | ht
      · exact h.inFlight v r t ht
      · obtain rfl := List.mem_singleton.mp ht
        exact hv ▸ hs
    · exact h.inFlight v r t ht

theorem Written.deliver [DecidableEq ω] [DecidableEq ρ] (h : m.Written W) (w : ω) (r : ρ) :
    (m.deliver w r).Written W := by
  unfold Mesh.deliver
  split
  · exact h
  next s later hqueue =>
    have hs : W w s := h.inFlight w r s (by simp [hqueue])
    constructor
    · intro v q t ht
      dsimp only at ht
      by_cases hq : q = r
      · subst hq
        rw [Function.update_self, Map.lookup_insert_eq_some] at ht
        rcases ht with ⟨rfl, rfl⟩ | ⟨-, ht⟩
        · exact hs
        · exact h.views v q t ht
      · rw [Function.update_of_ne hq] at ht
        exact h.views v q t ht
    · intro v q t ht
      dsimp only at ht
      by_cases hv : v = w
      · subst hv
        rw [Function.update_self] at ht
        by_cases hq : q = r
        · subst hq
          rw [Function.update_self] at ht
          exact h.inFlight v q t (by simp [hqueue, ht])
        · rw [Function.update_of_ne hq] at ht
          exact h.inFlight v q t ht
      · rw [Function.update_of_ne hv] at ht
        exact h.inFlight v q t ht

end Mesh

end DdsOrchestrator.Ownership
