import Mathlib.Data.List.Basic

/-!
Histories of several parties. An entry is an act with the party it is by; the
share of a party is what it did, in order. What is known of every share by
itself says something of the history as a whole: if in each share an act comes
after another, it does so in the history too.
-/

namespace DdsOrchestrator

/-- Acts in the order in which they happened, each with its party. -/
abbrev History (κ α : Type*) := List (κ × α)

namespace History

variable {κ α : Type*} [DecidableEq κ]

/-- The acts of one party. -/
def share (k : κ) (h : History κ α) : List α :=
  (h.filter fun e => e.1 = k).map Prod.snd

variable {k l : κ} {a : α} {h h' : History κ α}

@[simp] theorem share_nil : share k ([] : History κ α) = [] := rfl

@[simp] theorem share_append : share k (h ++ h') = share k h ++ share k h' := by
  simp [share]

@[simp] theorem share_cons_self : share k ((k, a) :: h) = a :: share k h := by
  simp [share]

/-- What a party does is added to its share and to no other. -/
@[simp] theorem share_map_self (as : List α) : share k (as.map (k, ·)) = as := by
  induction as with
  | nil => rfl
  | cons a as ih => simp [ih]

theorem share_map_of_ne (hne : l ≠ k) (as : List α) : share k (as.map (l, ·)) = [] := by
  simp [share, hne]

theorem mem_share : a ∈ share k h ↔ (k, a) ∈ h := by
  simp only [share, List.mem_map, List.mem_filter, decide_eq_true_eq]
  constructor
  · rintro ⟨⟨l, b⟩, ⟨hmem, rfl⟩, rfl⟩
    exact hmem
  · intro hmem
    exact ⟨(k, a), ⟨hmem, rfl⟩, rfl⟩

/-- Each act of kind `P` is preceded by one of kind `Q` of the same party. -/
def Preceded (P Q : α → Prop) (h : History κ α) : Prop :=
  ∀ before k a after, h = before ++ (k, a) :: after → P a → ∃ b, (k, b) ∈ before ∧ Q b

/-- The same of the acts of a single party. -/
def PrecededIn (P Q : α → Prop) (as : List α) : Prop :=
  ∀ before a after, as = before ++ a :: after → P a → ∃ b ∈ before, Q b

@[simp] theorem precededIn_nil {P Q : α → Prop} : PrecededIn P Q [] := by
  intro before a after heq
  simp at heq

@[simp] theorem precededIn_cons {P Q : α → Prop} {as : List α} :
    PrecededIn P Q (a :: as) ↔ ¬ P a ∧ (Q a ∨ PrecededIn P Q as) := by
  constructor
  · intro hall
    refine ⟨fun ha => ?_, or_iff_not_imp_left.mpr fun hQ before b after heq hb => ?_⟩
    · obtain ⟨b, hb, -⟩ := hall [] a as rfl ha
      simp at hb
    · obtain ⟨c, hc, hQc⟩ := hall (a :: before) b after (by rw [heq]; rfl) hb
      obtain rfl | hc := List.mem_cons.mp hc
      · exact absurd hQc hQ
      · exact ⟨c, hc, hQc⟩
  · rintro ⟨ha, hrest⟩ before b after heq hb
    cases before with
    | nil =>
        obtain ⟨rfl, rfl⟩ := List.cons.inj heq
        exact absurd hb ha
    | cons c before =>
        obtain ⟨rfl, htail⟩ := List.cons.inj heq
        obtain hQ | hrest := hrest
        · exact ⟨a, by simp, hQ⟩
        · obtain ⟨d, hd, hQd⟩ := hrest before b after htail hb
          exact ⟨d, by simp [hd], hQd⟩

theorem PrecededIn.of_isPrefix {P Q : α → Prop} {as bs : List α} (hall : PrecededIn P Q bs)
    (hpre : as <+: bs) : PrecededIn P Q as := by
  obtain ⟨rest, rfl⟩ := hpre
  intro before a after heq ha
  exact hall before a (after ++ rest) (by simp [heq]) ha

/-- Each act of kind `P` is preceded by one that stands in the relation `R` to it. -/
def Justified (P : α → Prop) (R : α → α → Prop) (as : List α) : Prop :=
  ∀ before a after, as = before ++ a :: after → P a → ∃ b ∈ before, R a b

theorem Justified.concat {P : α → Prop} {R : α → α → Prop} {as : List α}
    (hall : Justified P R as) (ha : P a → ∃ b ∈ as, R a b) : Justified P R (as ++ [a]) := by
  intro before b after heq hb
  rcases List.eq_nil_or_concat' after with rfl | ⟨rest, c, rfl⟩
  · obtain ⟨rfl, hlast⟩ := List.append_inj' heq rfl
    obtain rfl := List.singleton_inj.mp hlast
    exact ha hb
  · rw [← List.cons_append, ← List.append_assoc] at heq
    obtain ⟨rfl, -⟩ := List.append_inj' heq rfl
    exact hall before b rest rfl hb

theorem preceded_of_share {P Q : α → Prop} (hshare : ∀ k, PrecededIn P Q (share k h)) :
    Preceded P Q h := by
  rintro before k a after rfl ha
  obtain ⟨b, hb, hQ⟩ := hshare k (share k before) a (share k after) (by simp) ha
  exact ⟨b, mem_share.mp hb, hQ⟩

/-- If no party does `P` twice, and no two parties do `P`, it is done once. -/
theorem pairwise_of_share {P : α → Prop} {S : κ → Prop}
    (hshare : ∀ k, (share k h).Pairwise fun a b => ¬ (P a ∧ P b))
    (hparty : ∀ k l a b, (k, a) ∈ h → (l, b) ∈ h → S k → S l → P a → P b → k = l) :
    h.Pairwise fun e f => ¬ ((S e.1 ∧ P e.2) ∧ (S f.1 ∧ P f.2)) := by
  induction h with
  | nil => exact .nil
  | cons e h ih =>
      obtain ⟨k, a⟩ := e
      refine List.pairwise_cons.mpr ⟨?_, ?_⟩
      · rintro ⟨l, b⟩ hmem ⟨⟨hk, ha⟩, hl, hb⟩
        obtain rfl := hparty k l a b (by simp) (by simp [hmem]) hk hl ha hb
        have hself := hshare k
        rw [share_cons_self, List.pairwise_cons] at hself
        exact hself.1 b (mem_share.mpr hmem) ⟨ha, hb⟩
      · refine ih (fun l => ?_) fun k l a b hk hl => hparty k l a b (by simp [hk]) (by simp [hl])
        have hall := hshare l
        by_cases hkl : k = l
        · subst hkl
          rw [share_cons_self, List.pairwise_cons] at hall
          exact hall.2
        · have hsame : share l ((k, a) :: h) = share l h := by simp [share, hkl]
          rwa [hsame] at hall

end History

end DdsOrchestrator
