import Mathlib.Data.List.Infix
import Mathlib.Data.List.Nodup
import Mathlib.Data.List.Perm.Subperm

/-!
Masks over the occurrences of several patterns in a text, one pattern after the other. A
pass goes over the text from left to right, and what it masks stays masked; so an occurrence
is masked if none that comes before it in this order, and was masked, is in its way. The
passes are made on the text with its masks in it, which agrees with that as long as no
pattern is found across the end of a mask.
-/

namespace DdsOrchestrator.Masking

variable {α : Type*}

/-- A text with some of its segments behind a mask. -/
inductive Piece (α : Type*) where
  | keep (x : α)
  | masked (segment : List α)
  deriving DecidableEq

def Piece.origin : Piece α → List α
  | keep x => [x]
  | masked segment => segment

def Piece.shown (mask : List α) : Piece α → List α
  | keep x => [x]
  | masked _ => mask

def origin (ps : List (Piece α)) : List α := ps.flatMap Piece.origin

def shown (mask : List α) (ps : List (Piece α)) : List α := ps.flatMap (Piece.shown mask)

def keeps (l : List α) : List (Piece α) := l.map .keep

def OccursAt (pat text : List α) (i : ℕ) : Prop := pat <+: text.drop i

/-- The segment at `i` is masked, and it is `pat`. -/
def MaskedAt (ps : List (Piece α)) (pat : List α) (i : ℕ) : Prop :=
  ∃ before after, ps = before ++ .masked pat :: after ∧ (origin before).length = i

/-- No position is in both of two segments. -/
def Apart (pat : List α) (i : ℕ) (pat' : List α) (i' : ℕ) : Prop :=
  i + pat.length ≤ i' ∨ i' + pat'.length ≤ i

section

variable {mask : List α} {p : Piece α} {ps qs : List (Piece α)} {l : List α}

@[simp] theorem origin_nil : origin ([] : List (Piece α)) = [] := rfl

@[simp] theorem origin_cons : origin (p :: ps) = p.origin ++ origin ps := rfl

@[simp] theorem origin_append : origin (ps ++ qs) = origin ps ++ origin qs := by
  simp [origin]

@[simp] theorem origin_keeps : origin (keeps l) = l := by
  induction l with
  | nil => rfl
  | cons x l ih =>
      show [x] ++ origin (keeps l) = x :: l
      rw [ih, List.singleton_append]

@[simp] theorem shown_nil : shown mask ([] : List (Piece α)) = [] := rfl

@[simp] theorem shown_cons : shown mask (p :: ps) = p.shown mask ++ shown mask ps := rfl

@[simp] theorem shown_append : shown mask (ps ++ qs) = shown mask ps ++ shown mask qs := by
  simp [shown]

@[simp] theorem shown_keeps : shown mask (keeps l) = l := by
  induction l with
  | nil => rfl
  | cons x l ih =>
      show [x] ++ shown mask (keeps l) = x :: l
      rw [ih, List.singleton_append]

/-- Nothing is shown but the mask and what was there. -/
theorem mem_of_mem_shown {x : α} (h : x ∈ shown mask ps) : x ∈ mask ∨ x ∈ origin ps := by
  obtain ⟨p, hp, hx⟩ := List.mem_flatMap.mp h
  cases p with
  | keep y => exact .inr (List.mem_flatMap.mpr ⟨.keep y, hp, hx⟩)
  | masked segment => exact .inl hx

@[simp] theorem keeps_cons (x : α) (l : List α) : keeps (x :: l) = .keep x :: keeps l := rfl

@[simp] theorem length_keeps : (keeps l).length = l.length := by
  simp [keeps]

end

theorem OccursAt.getElem? {pat text : List α} {i j : ℕ} (h : OccursAt pat text i)
    (hj : j < pat.length) : text[i + j]? = pat[j]? := by
  obtain ⟨rest, hrest⟩ := h
  rw [← List.getElem?_drop, ← hrest, List.getElem?_append_left hj]

/-! ### What is masked -/

section

variable {p : Piece α} {ps qs : List (Piece α)} {pat pat' : List α} {i i' : ℕ}

theorem maskedAt_nil : ¬ MaskedAt ([] : List (Piece α)) pat i := by
  rintro ⟨before, after, h, -⟩
  cases before <;> cases h

theorem maskedAt_cons : MaskedAt (p :: ps) pat i ↔
    (p = .masked pat ∧ i = 0) ∨ ∃ i', MaskedAt ps pat i' ∧ i = p.origin.length + i' := by
  constructor
  · rintro ⟨before, after, h, rfl⟩
    cases before with
    | nil =>
        cases h
        exact .inl ⟨rfl, rfl⟩
    | cons q before =>
        cases h
        exact .inr ⟨_, ⟨before, after, rfl, rfl⟩, by simp⟩
  · rintro (⟨rfl, rfl⟩ | ⟨i', ⟨before, after, rfl, rfl⟩, rfl⟩)
    · exact ⟨[], ps, rfl, rfl⟩
    · exact ⟨p :: before, after, rfl, by simp⟩

theorem maskedAt_keep_cons {x : α} : MaskedAt (.keep x :: ps) pat i ↔
    ∃ i', MaskedAt ps pat i' ∧ i = 1 + i' := by
  simp [maskedAt_cons, Piece.origin]

theorem maskedAt_keeps_append {l : List α} : MaskedAt (keeps l ++ ps) pat i ↔
    ∃ i', MaskedAt ps pat i' ∧ i = l.length + i' := by
  induction l generalizing i with
  | nil => simp [keeps]
  | cons x l ih =>
      rw [keeps_cons, List.cons_append, maskedAt_keep_cons]
      constructor
      · rintro ⟨i', h, rfl⟩
        obtain ⟨i'', h', rfl⟩ := ih.mp h
        exact ⟨i'', h', by rw [List.length_cons]; omega⟩
      · rintro ⟨i', h, rfl⟩
        exact ⟨_, ih.mpr ⟨i', h, rfl⟩, by rw [List.length_cons]; omega⟩

theorem maskedAt_keeps {l : List α} : ¬ MaskedAt (keeps l) pat i := by
  intro h
  rw [← List.append_nil (keeps l)] at h
  obtain ⟨i', h', -⟩ := maskedAt_keeps_append.mp h
  exact maskedAt_nil h'

/-- What is masked occurs there. -/
theorem MaskedAt.occursAt (h : MaskedAt ps pat i) : OccursAt pat (origin ps) i := by
  obtain ⟨before, after, rfl, rfl⟩ := h
  rw [OccursAt, origin_append, List.drop_left]
  exact List.prefix_append pat (origin after)

/-- Two masks are one, or apart. -/
theorem MaskedAt.eq_or_apart (h : MaskedAt ps pat i) (h' : MaskedAt ps pat' i') :
    (pat = pat' ∧ i = i') ∨ Apart pat i pat' i' := by
  induction ps generalizing i i' with
  | nil => exact absurd h maskedAt_nil
  | cons p ps ih =>
      obtain ⟨rfl, rfl⟩ | ⟨j, hj, rfl⟩ := maskedAt_cons.mp h
      · obtain ⟨heq, rfl⟩ | ⟨j', hj', rfl⟩ := maskedAt_cons.mp h'
        · cases heq
          exact .inl ⟨rfl, rfl⟩
        · exact .inr (.inl (by simp [Piece.origin]))
      · obtain ⟨rfl, rfl⟩ | ⟨j', hj', rfl⟩ := maskedAt_cons.mp h'
        · exact .inr (.inr (by simp [Piece.origin]))
        · obtain ⟨rfl, rfl⟩ | hapart := ih hj hj'
          · exact .inl ⟨rfl, rfl⟩
          · refine .inr ?_
            unfold Apart at hapart ⊢
            omega

theorem eq_nil_of_origin (h : origin ps = []) (hne : ∀ segment, .masked segment ∈ ps →
    segment ≠ []) : ps = [] := by
  cases ps with
  | nil => rfl
  | cons p ps =>
      rw [origin_cons, List.append_eq_nil_iff] at h
      cases p with
      | keep x => cases h.1
      | masked segment => exact absurd h.1 (hne segment List.mem_cons_self)

/-- An occurrence that no mask is in the way of is there to be found. -/
theorem exists_keeps_of_occursAt (hpat : pat ≠ []) (hne : ∀ segment, .masked segment ∈ ps →
      segment ≠ []) (hocc : OccursAt pat (origin ps) i)
    (hfree : ∀ q j, MaskedAt ps q j → Apart q j pat i) :
    ∃ before after, ps = before ++ keeps pat ++ after ∧ (origin before).length = i := by
  induction ps generalizing pat i with
  | nil =>
      rw [OccursAt, origin_nil, List.drop_nil] at hocc
      exact absurd (List.prefix_nil.mp hocc) hpat
  | cons p ps ih =>
      have hne' : ∀ segment, Piece.masked segment ∈ ps → segment ≠ [] :=
        fun segment h => hne segment (List.mem_cons_of_mem _ h)
      -- an occurrence that begins behind the first piece
      have hlater : ∀ j, i = p.origin.length + j → ∃ before after,
          p :: ps = before ++ keeps pat ++ after ∧ (origin before).length = i := by
        rintro j rfl
        have hocc' : OccursAt pat (origin ps) j := by
          rw [OccursAt, origin_cons, ← List.drop_drop, List.drop_left] at hocc
          exact hocc
        obtain ⟨before, after, rfl, rfl⟩ := ih hpat hne' hocc' fun q k hk => by
          have hapart := hfree q _ (maskedAt_cons.mpr (.inr ⟨k, hk, rfl⟩))
          unfold Apart at hapart ⊢
          omega
        exact ⟨p :: before, after, rfl, by simp⟩
      cases p with
      | masked segment =>
          have hapart := hfree segment 0 (maskedAt_cons.mpr (.inl ⟨rfl, rfl⟩))
          have hsegment := List.length_pos_iff.mpr (hne segment List.mem_cons_self)
          unfold Apart at hapart
          have hpos := List.length_pos_iff.mpr hpat
          exact hlater (i - segment.length) (by simp only [Piece.origin]; omega)
      | keep x =>
          cases i with
          | succ j => exact hlater j (by simp only [Piece.origin, List.length_singleton]; omega)
          | zero =>
              cases pat with
              | nil => exact absurd rfl hpat
              | cons y pat =>
                  rw [OccursAt, List.drop_zero, origin_cons, Piece.origin, List.singleton_append,
                    List.cons_prefix_cons] at hocc
                  obtain ⟨rfl, hrest⟩ := hocc
                  by_cases hpat' : pat = []
                  · subst hpat'
                    exact ⟨[], ps, rfl, rfl⟩
                  · have hfree' : ∀ q k, MaskedAt ps q k → Apart q k pat 0 := by
                      intro q k hk
                      have hapart := hfree q _ (maskedAt_keep_cons.mpr ⟨k, hk, rfl⟩)
                      unfold Apart at hapart ⊢
                      rw [List.length_cons] at hapart
                      omega
                    obtain ⟨before, after, rfl, hbefore⟩ := ih (i := 0) hpat' hne' hrest hfree'
                    have hnil : before = [] := by
                      refine eq_nil_of_origin (List.length_eq_zero_iff.mp hbefore)
                        fun segment h => hne' segment ?_
                      exact List.mem_append_left _ (List.mem_append_left _ h)
                    subst hnil
                    exact ⟨[], after, rfl, rfl⟩

end

/-! ### A pass -/

section

variable [DecidableEq α]

/-- `new` in the place of every occurrence of `pat`, from left to right; `skip` elements
belong to the one that was found last. -/
def replaceFrom (pat new : List α) : ℕ → List α → List α
  | _, [] => []
  | skip + 1, _ :: l => replaceFrom pat new skip l
  | 0, x :: l =>
      if pat <+: x :: l then new ++ replaceFrom pat new (pat.length - 1) l
      else x :: replaceFrom pat new 0 l

def replace (pat new l : List α) : List α := replaceFrom pat new 0 l

/-- The same with masks, which are not looked into. -/
def passFrom (pat : List α) : ℕ → List (Piece α) → List (Piece α)
  | _, [] => []
  | skip + 1, _ :: ps => passFrom pat skip ps
  | 0, p :: ps =>
      if keeps pat <+: p :: ps then .masked pat :: passFrom pat (pat.length - 1) ps
      else p :: passFrom pat 0 ps

def pass (ps : List (Piece α)) (pat : List α) : List (Piece α) := passFrom pat 0 ps

variable {pat new l : List α} {p : Piece α} {ps : List (Piece α)}

theorem replaceFrom_skip (skip : ℕ) (l : List α) :
    replaceFrom pat new skip l = replace pat new (l.drop skip) := by
  induction skip generalizing l with
  | zero => rfl
  | succ skip ih =>
      cases l with
      | nil => rfl
      | cons x l => exact ih l

theorem passFrom_skip (skip : ℕ) (ps : List (Piece α)) :
    passFrom pat skip ps = pass (ps.drop skip) pat := by
  induction skip generalizing ps with
  | zero => rfl
  | succ skip ih =>
      cases ps with
      | nil => rfl
      | cons p ps => exact ih ps

theorem replace_append (hpat : pat ≠ []) (l : List α) :
    replace pat new (pat ++ l) = new ++ replace pat new l := by
  cases pat with
  | nil => exact absurd rfl hpat
  | cons x pat =>
      have hfound : x :: pat <+: x :: (pat ++ l) := List.prefix_append (x :: pat) l
      rw [List.cons_append, replace, replaceFrom, if_pos hfound, replaceFrom_skip,
        List.length_cons, Nat.add_sub_cancel, List.drop_left]

theorem replace_cons {x : α} (h : ¬ pat <+: x :: l) :
    replace pat new (x :: l) = x :: replace pat new l := by
  rw [replace, replaceFrom, if_neg h]
  rfl

theorem pass_keeps_append (hpat : pat ≠ []) (ps : List (Piece α)) :
    pass (keeps pat ++ ps) pat = .masked pat :: pass ps pat := by
  cases pat with
  | nil => exact absurd rfl hpat
  | cons x pat =>
      have hfound : keeps (x :: pat) <+: .keep x :: (keeps pat ++ ps) :=
        List.prefix_append (keeps (x :: pat)) ps
      rw [keeps_cons, List.cons_append, pass, passFrom, if_pos hfound, passFrom_skip,
        List.length_cons, Nat.add_sub_cancel, ← length_keeps, List.drop_left]

theorem pass_cons (h : ¬ keeps pat <+: p :: ps) : pass (p :: ps) pat = p :: pass ps pat := by
  rw [pass, passFrom, if_neg h]
  rfl

/-- A pass at the level of pieces: at each place the pattern is found, or it is not. -/
inductive Passed (pat : List α) : List (Piece α) → List (Piece α) → Prop
  | nil : Passed pat [] []
  | found {ps qs} (h : Passed pat ps qs) : Passed pat (keeps pat ++ ps) (.masked pat :: qs)
  | skip {p ps qs} (hnot : ¬ keeps pat <+: p :: ps) (h : Passed pat ps qs) :
      Passed pat (p :: ps) (p :: qs)

theorem passed_pass (hpat : pat ≠ []) (ps : List (Piece α)) : Passed pat ps (pass ps pat) := by
  induction hn : ps.length using Nat.strong_induction_on generalizing ps with
  | _ n ih =>
    subst hn
    cases ps with
    | nil => exact .nil
    | cons p ps =>
        by_cases hfound : keeps pat <+: p :: ps
        · obtain ⟨rest, hrest⟩ := hfound
          rw [← hrest, pass_keeps_append hpat]
          refine .found (ih rest.length ?_ rest rfl)
          rw [← hrest, List.length_append, length_keeps]
          have := List.length_pos_iff.mpr hpat
          omega
        · rw [pass_cons hfound]
          exact .skip hfound (ih ps.length (Nat.lt_succ_self _) ps rfl)

end

section

variable {pat pat' : List α} {ps qs : List (Piece α)} {i : ℕ}

theorem Passed.origin_eq (h : Passed pat ps qs) : origin qs = origin ps := by
  induction h with
  | nil => rfl
  | found h ih => rw [origin_cons, ih, origin_append, origin_keeps]; rfl
  | skip hnot h ih => rw [origin_cons, ih, origin_cons]

/-- Masks stay, and new ones are over the pattern. -/
theorem Passed.maskedAt_of (h : Passed pat ps qs) (hmasked : MaskedAt ps pat' i) :
    MaskedAt qs pat' i := by
  induction h generalizing i with
  | nil => exact hmasked
  | found h ih =>
      obtain ⟨j, hj, rfl⟩ := maskedAt_keeps_append.mp hmasked
      exact maskedAt_cons.mpr (.inr ⟨j, ih hj, rfl⟩)
  | skip hnot h ih =>
      obtain ⟨rfl, rfl⟩ | ⟨j, hj, rfl⟩ := maskedAt_cons.mp hmasked
      · exact maskedAt_cons.mpr (.inl ⟨rfl, rfl⟩)
      · exact maskedAt_cons.mpr (.inr ⟨j, ih hj, rfl⟩)

theorem Passed.of_maskedAt (h : Passed pat ps qs) (hmasked : MaskedAt qs pat' i) :
    pat' = pat ∨ MaskedAt ps pat' i := by
  induction h generalizing i with
  | nil => exact .inr hmasked
  | found h ih =>
      obtain ⟨heq, -⟩ | ⟨j, hj, rfl⟩ := maskedAt_cons.mp hmasked
      · cases heq
        exact .inl rfl
      · exact (ih hj).imp_right fun hk => maskedAt_keeps_append.mpr ⟨j, hk, rfl⟩
  | skip hnot h ih =>
      obtain ⟨rfl, rfl⟩ | ⟨j, hj, rfl⟩ := maskedAt_cons.mp hmasked
      · exact .inr (maskedAt_cons.mpr (.inl ⟨rfl, rfl⟩))
      · exact (ih hj).imp_right fun hk => maskedAt_cons.mpr (.inr ⟨j, hk, rfl⟩)

/-- What could be found is masked, unless an occurrence to its left was that overlaps it. -/
theorem Passed.found_or_overlapped (hpat : pat ≠ []) (h : Passed pat ps qs)
    {before after : List (Piece α)} (hps : ps = before ++ keeps pat ++ after) :
    MaskedAt qs pat (origin before).length ∨ ∃ j, MaskedAt qs pat j ∧
      j < (origin before).length ∧ (origin before).length < j + pat.length := by
  induction h generalizing before with
  | nil =>
      have hlen := congrArg List.length hps
      simp only [List.length_nil, List.length_append, length_keeps] at hlen
      exact absurd (List.length_eq_zero_iff.mp (by omega)) hpat
  | @found ps qs h ih =>
      have hwhole : before <+: keeps pat ++ ps := ⟨keeps pat ++ after, by
        rw [hps, List.append_assoc]⟩
      by_cases hlt : before.length < (keeps pat).length
      · -- it begins within the occurrence that is found here
        have hmasked : MaskedAt (.masked pat :: qs) pat 0 := maskedAt_cons.mpr (.inl ⟨rfl, rfl⟩)
        obtain ⟨cut, hcut⟩ := List.prefix_of_prefix_length_le hwhole (List.prefix_append _ ps)
          (Nat.le_of_lt hlt)
        have hlen : (origin before).length + (origin cut).length = pat.length := by
          rw [← List.length_append, ← origin_append, hcut, origin_keeps]
        have hcutpos : (origin cut).length ≠ 0 := by
          intro hzero
          have hkeeps : ∀ segment, .masked segment ∈ cut → segment ≠ [] := by
            intro segment hsegment
            have hkept : .masked segment ∈ keeps pat := hcut ▸ List.mem_append_right before hsegment
            obtain ⟨x, -, hx⟩ := List.mem_map.mp hkept
            cases hx
          have hnil := eq_nil_of_origin (List.length_eq_zero_iff.mp hzero) hkeeps
          rw [hnil, List.append_nil] at hcut
          rw [hcut] at hlt
          exact Nat.lt_irrefl _ hlt
        by_cases hzero : (origin before).length = 0
        · rw [hzero]
          exact .inl hmasked
        · exact .inr ⟨0, hmasked, by omega, by omega⟩
      · obtain ⟨cut, rfl⟩ := List.prefix_of_prefix_length_le (List.prefix_append _ ps) hwhole
          (Nat.not_lt.mp hlt)
        rw [List.append_assoc, List.append_assoc, List.append_cancel_left_eq,
          ← List.append_assoc] at hps
        obtain hmasked | ⟨j, hmasked, hlt, hend⟩ := ih hps
        · refine .inl (maskedAt_cons.mpr (.inr ⟨_, hmasked, ?_⟩))
          rw [origin_append, origin_keeps, List.length_append]
          rfl
        · refine .inr ⟨_, maskedAt_cons.mpr (.inr ⟨j, hmasked, rfl⟩), ?_, ?_⟩
          · rw [origin_append, origin_keeps, List.length_append]
            exact Nat.add_lt_add_left hlt _
          · rw [origin_append, origin_keeps, List.length_append]
            show pat.length + _ < pat.length + j + pat.length
            omega
  | @skip p ps qs hnot h ih =>
      cases before with
      | nil =>
          rw [List.nil_append] at hps
          exact absurd (hps ▸ List.prefix_append _ _) hnot
      | cons q before =>
          rw [List.cons_append, List.cons_append, List.cons.injEq] at hps
          obtain ⟨rfl, hps⟩ := hps
          obtain hmasked | ⟨j, hmasked, hlt, hend⟩ := ih hps
          · exact .inl (maskedAt_cons.mpr (.inr ⟨_, hmasked, by simp⟩))
          · refine .inr ⟨_, maskedAt_cons.mpr (.inr ⟨j, hmasked, rfl⟩), ?_, ?_⟩
            · rw [origin_cons, List.length_append]
              exact Nat.add_lt_add_left hlt _
            · rw [origin_cons, List.length_append]
              omega

end

/-! ### One pass after the other -/

section

variable [DecidableEq α]

def passes (pats : List (List α)) (ps : List (Piece α)) : List (Piece α) := pats.foldl pass ps

variable {pats : List (List α)} {ps : List (Piece α)} {pat text : List α} {i : ℕ}

theorem passes_append (pats pats' : List (List α)) (ps : List (Piece α)) :
    passes (pats ++ pats') ps = passes pats' (passes pats ps) := List.foldl_append

theorem origin_passes (hne : ∀ p ∈ pats, p ≠ []) : origin (passes pats ps) = origin ps := by
  induction pats generalizing ps with
  | nil => rfl
  | cons p pats ih =>
      exact (ih fun q hq => hne q (List.mem_cons_of_mem _ hq)).trans
        (passed_pass (hne p List.mem_cons_self) ps).origin_eq

theorem maskedAt_passes (hne : ∀ p ∈ pats, p ≠ []) (h : MaskedAt ps pat i) :
    MaskedAt (passes pats ps) pat i := by
  induction pats generalizing ps with
  | nil => exact h
  | cons p pats ih =>
      exact ih (fun q hq => hne q (List.mem_cons_of_mem _ hq))
        ((passed_pass (hne p List.mem_cons_self) ps).maskedAt_of h)

theorem of_maskedAt_passes (hne : ∀ p ∈ pats, p ≠ []) (h : MaskedAt (passes pats ps) pat i) :
    pat ∈ pats ∨ MaskedAt ps pat i := by
  induction pats generalizing ps with
  | nil => exact .inr h
  | cons p pats ih =>
      obtain hmem | hmasked := ih (fun q hq => hne q (List.mem_cons_of_mem _ hq)) h
      · exact .inl (List.mem_cons_of_mem _ hmem)
      · obtain rfl | hbefore := (passed_pass (hne p List.mem_cons_self) ps).of_maskedAt hmasked
        · exact .inl List.mem_cons_self
        · exact .inr hbefore

theorem mem_of_maskedAt_passes (hne : ∀ p ∈ pats, p ≠ [])
    (h : MaskedAt (passes pats (keeps text)) pat i) : pat ∈ pats :=
  (of_maskedAt_passes hne h).resolve_right maskedAt_keeps

theorem ne_nil_of_masked (hne : ∀ p ∈ pats, p ≠ []) {segment : List α}
    (h : .masked segment ∈ passes pats (keeps text)) : segment ≠ [] := by
  obtain ⟨before, after, hsplit⟩ := List.append_of_mem h
  exact hne _ (mem_of_maskedAt_passes hne ⟨before, after, hsplit, rfl⟩)

end

/-! ### The occurrences that are met first -/

section

/-- The occurrences that no other one is in the way of, among those that come before them
and are such occurrences themselves: of an earlier pattern, or of the same one to the left. -/
def MetFirst (earlier : List α → List α → Prop) (pats : List (List α)) (text : List α)
    (F : List α → ℕ → Prop) : Prop :=
  ∀ pat i, F pat i ↔ pat ∈ pats ∧ OccursAt pat text i ∧
    ∀ pat' i', F pat' i' → earlier pat' pat ∨ (pat' = pat ∧ i' < i) → Apart pat' i' pat i

variable {earlier : List α → List α → Prop} {pats before after : List (List α)}
  {text pat pat' : List α} {F G : List α → ℕ → Prop}

theorem earlier_iff_mem (hsorted : pats.Pairwise earlier)
    (hasymm : ∀ p q, earlier p q → ¬ earlier q p) (hsplit : pats = before ++ pat :: after)
    (hmem : pat' ∈ pats) : earlier pat' pat ↔ pat' ∈ before := by
  subst hsplit
  rw [List.pairwise_append, List.pairwise_cons] at hsorted
  obtain ⟨-, ⟨hafter, -⟩, hbefore⟩ := hsorted
  constructor
  · intro hearlier
    rcases List.mem_append.mp hmem with h | h
    · exact h
    · rcases List.mem_cons.mp h with rfl | h
      · exact absurd hearlier (hasymm _ _ hearlier)
      · exact absurd (hafter _ h) (hasymm _ _ hearlier)
  · intro h
    exact hbefore _ h _ List.mem_cons_self

/-- There is one such set of occurrences only: by induction on the patterns before, and then
on the position. -/
theorem MetFirst.unique (hsorted : pats.Pairwise earlier)
    (hasymm : ∀ p q, earlier p q → ¬ earlier q p) (hF : MetFirst earlier pats text F)
    (hG : MetFirst earlier pats text G) (pat : List α) (i : ℕ) : F pat i ↔ G pat i := by
  have key : ∀ n before pat after, pats = before ++ pat :: after → before.length = n →
      ∀ i, F pat i ↔ G pat i := by
    intro n
    induction n using Nat.strong_induction_on with
    | _ n ihpats =>
      intro before pat after hsplit hlen i
      induction i using Nat.strong_induction_on with
      | _ i ihpos =>
        have hsame : ∀ pat' i', pat' ∈ pats → earlier pat' pat ∨ (pat' = pat ∧ i' < i) →
            (F pat' i' ↔ G pat' i') := by
          rintro pat' i' hmem (hearlier | ⟨rfl, hlt⟩)
          · have hmem' := (earlier_iff_mem hsorted hasymm hsplit hmem).mp hearlier
            obtain ⟨before', after', rfl⟩ := List.append_of_mem hmem'
            refine ihpats before'.length ?_ before' pat' (after' ++ pat :: after) ?_ rfl i'
            · rw [← hlen, List.length_append, List.length_cons]
              omega
            · rw [hsplit, List.append_assoc, List.cons_append]
          · exact ihpos i' hlt
        rw [hF, hG]
        refine and_congr_right fun _ => and_congr_right fun _ => forall_congr' fun pat' =>
          forall_congr' fun i' => ?_
        constructor
        · intro h hG' hbefore
          exact h ((hsame pat' i' ((hG pat' i').mp hG').1 hbefore).mpr hG') hbefore
        · intro h hF' hbefore
          exact h ((hsame pat' i' ((hF pat' i').mp hF').1 hbefore).mp hF') hbefore
  by_cases hmem : pat ∈ pats
  · obtain ⟨before, after, hsplit⟩ := List.append_of_mem hmem
    exact key _ before pat after hsplit rfl i
  · rw [hF, hG]
    simp [hmem]

/-- The passes mask the occurrences that are met first. -/
theorem metFirst_maskedAt [DecidableEq α] (hne : ∀ p ∈ pats, p ≠ [])
    (hsorted : pats.Pairwise earlier) (hasymm : ∀ p q, earlier p q → ¬ earlier q p)
    (text : List α) : MetFirst earlier pats text (MaskedAt (passes pats (keeps text))) := by
  intro pat i
  constructor
  · intro hmasked
    refine ⟨mem_of_maskedAt_passes hne hmasked, ?_, ?_⟩
    · have hocc := hmasked.occursAt
      rwa [origin_passes hne, origin_keeps] at hocc
    · intro pat' i' hmasked' hbefore
      obtain ⟨rfl, rfl⟩ | hapart := hmasked'.eq_or_apart hmasked
      · rcases hbefore with hearlier | ⟨-, hlt⟩
        · exact absurd hearlier (hasymm _ _ hearlier)
        · exact absurd hlt (Nat.lt_irrefl _)
      · exact hapart
  · rintro ⟨hmem, hocc, hfree⟩
    obtain ⟨before, after, rfl⟩ := List.append_of_mem hmem
    have hbefore : ∀ p ∈ before, p ≠ [] := fun p hp => hne p (List.mem_append_left _ hp)
    have hpat : pat ≠ [] := hne pat hmem
    have hafter : ∀ p ∈ after, p ≠ [] := fun p hp =>
      hne p (List.mem_append_right _ (List.mem_cons_of_mem _ hp))
    -- the masks at the time of the pass of `pat` are those of earlier patterns, and stay
    have hpass : passes (before ++ pat :: after) (keeps text) =
        passes after (pass (passes before (keeps text)) pat) := by
      rw [passes_append]
      rfl
    have hpassed := passed_pass hpat (passes before (keeps text))
    have horigin : origin (passes before (keeps text)) = text := by
      rw [origin_passes hbefore, origin_keeps]
    have hstay : ∀ q j, MaskedAt (pass (passes before (keeps text)) pat) q j →
        MaskedAt (passes (before ++ pat :: after) (keeps text)) q j := by
      intro q j h
      rw [hpass]
      exact maskedAt_passes hafter h
    obtain ⟨left, right, hsplit, rfl⟩ := exists_keeps_of_occursAt hpat
      (fun segment h => ne_nil_of_masked hbefore h) (horigin ▸ hocc) fun q j hq => by
        have hmem' := mem_of_maskedAt_passes hbefore hq
        refine hfree q j (hstay q j (hpassed.maskedAt_of hq)) (.inl ?_)
        exact (earlier_iff_mem hsorted hasymm rfl (List.mem_append_left _ hmem')).mpr hmem'
    obtain hmasked | ⟨j, hmasked, hlt, hend⟩ := hpassed.found_or_overlapped hpat hsplit
    · exact hstay _ _ hmasked
    · have hapart := hfree pat j (hstay _ _ hmasked) (.inr ⟨rfl, hlt⟩)
      unfold Apart at hapart
      omega

end

/-! ### The passes on the text with its masks -/

section

/-- The pattern is found in the text with its masks only where all of it has been kept. -/
def Clear (mask pat : List α) (ps : List (Piece α)) : Prop :=
  ∀ i, OccursAt pat (shown mask ps) i →
    ∃ before after, ps = before ++ keeps pat ++ after ∧ (shown mask before).length = i

/-- No pattern is found across the end of a mask, wherever in the text there are masks over
patterns before it. -/
def Unspoilt (mask : List α) (pats : List (List α)) (text : List α) : Prop :=
  ∀ before pat after, pats = before ++ pat :: after → ∀ ps, origin ps = text →
    (∀ segment, .masked segment ∈ ps → segment ∈ before) → Clear mask pat ps

variable {mask pat text l : List α} {p : Piece α} {ps qs : List (Piece α)}

theorem Piece.length_shown_pos (hmask : mask ≠ []) (p : Piece α) :
    0 < (p.shown mask).length := by
  cases p with
  | keep x => exact Nat.zero_lt_one
  | masked segment => exact List.length_pos_iff.mpr hmask

theorem occursAt_append_add (l l' : List α) (i : ℕ) :
    OccursAt pat (l ++ l') (l.length + i) ↔ OccursAt pat l' i := by
  rw [OccursAt, OccursAt, ← List.drop_drop, List.drop_left]

/-- What is found among the first pieces begins with them. -/
theorem Clear.keeps_prefix (h : Clear mask pat (p :: ps)) {i : ℕ}
    (hocc : OccursAt pat (shown mask (p :: ps)) i) (hi : i < (p.shown mask).length) :
    keeps pat <+: p :: ps := by
  obtain ⟨before, after, hsplit, hlen⟩ := h i hocc
  cases before with
  | nil => exact ⟨after, hsplit.symm⟩
  | cons q before =>
      rw [List.cons_append, List.cons_append] at hsplit
      cases hsplit
      rw [shown_cons, List.length_append] at hlen
      omega

theorem Clear.tail (hmask : mask ≠ []) (h : Clear mask pat (p :: ps)) : Clear mask pat ps := by
  intro i hocc
  rw [← occursAt_append_add (p.shown mask)] at hocc
  obtain ⟨before, after, hsplit, hlen⟩ := h _ hocc
  have hpos := p.length_shown_pos hmask
  cases before with
  | nil =>
      rw [shown_nil, List.length_nil] at hlen
      omega
  | cons q before =>
      rw [List.cons_append, List.cons_append] at hsplit
      cases hsplit
      rw [shown_cons, List.length_append] at hlen
      exact ⟨before, after, rfl, by omega⟩

theorem Clear.of_append (hmask : mask ≠ []) (h : Clear mask pat (qs ++ ps)) :
    Clear mask pat ps := by
  induction qs with
  | nil => exact h
  | cons q qs ih => exact ih (h.tail hmask)

/-! #### Patterns that are clear of every mask -/

/-- The pattern cannot be found across the end of a mask of `n` times `a`. -/
structure Inert (a : α) (n : ℕ) (pat : List α) : Prop where
  head : pat.head? ≠ some a
  last : pat.getLast? ≠ some a
  inside : ¬ List.replicate n a <:+: pat

variable {a : α} {n : ℕ}

theorem Inert.of_not_mem (hmem : a ∉ pat) (hn : 0 < n) : Inert a n pat where
  head h := hmem (List.mem_of_mem_head? h)
  last h := hmem (List.mem_of_getLast? h)
  inside h := hmem (h.subset (List.mem_replicate.mpr ⟨by omega, rfl⟩))

theorem prefix_of_prefix_shown (hlast : pat.getLast? ≠ some a)
    (hinside : ¬ List.replicate n a <:+: pat) (h : pat <+: shown (List.replicate n a) ps) :
    keeps pat <+: ps := by
  induction ps generalizing pat with
  | nil =>
      rw [List.prefix_nil.mp h]
      exact List.prefix_refl _
  | cons p ps ih =>
      cases pat with
      | nil => exact List.nil_prefix
      | cons y pat =>
          cases p with
          | keep x =>
              obtain ⟨rfl, hrest⟩ := List.cons_prefix_cons.mp h
              refine List.cons_prefix_cons.mpr ⟨rfl, ih ?_ ?_ hrest⟩
              · intro hpat
                refine hlast ?_
                rw [List.getLast?_cons, hpat]
                rfl
              · exact fun hpat => hinside (hpat.trans (List.suffix_cons y pat).isInfix)
          | masked segment =>
              rw [shown_cons, Piece.shown] at h
              exfalso
              rcases Nat.le_total (y :: pat).length n with hle | hle
              · -- the pattern is within the mask
                have hstars := List.prefix_of_prefix_length_le h (List.prefix_append _ _)
                  (by rwa [List.length_replicate])
                refine hlast ?_
                rw [List.eq_replicate_of_mem fun b hb =>
                  List.eq_of_mem_replicate (hstars.subset hb)]
                simp [List.getLast?_replicate]
              · exact hinside (List.prefix_of_prefix_length_le (List.prefix_append _ _) h
                  (by rwa [List.length_replicate])).isInfix

theorem Inert.clear (hpat : pat ≠ []) (h : Inert a n pat) (ps : List (Piece α)) :
    Clear (List.replicate n a) pat ps := by
  induction ps with
  | nil =>
      intro i hocc
      rw [OccursAt, shown_nil, List.drop_nil, List.prefix_nil] at hocc
      exact absurd hocc hpat
  | cons p ps ih =>
      intro i hocc
      rcases Nat.lt_or_ge i (p.shown (List.replicate n a)).length with hlt | hge
      · cases p with
        | keep x =>
            obtain rfl : i = 0 := Nat.lt_one_iff.mp hlt
            obtain ⟨after, hafter⟩ := prefix_of_prefix_shown h.last h.inside hocc
            exact ⟨[], after, hafter.symm, rfl⟩
        | masked segment =>
            -- the pattern would begin within the mask
            have hfirst := hocc.getElem? (List.length_pos_iff.mpr hpat)
            rw [Nat.add_zero, shown_cons, List.getElem?_append_left hlt, Piece.shown,
              List.getElem?_replicate, if_pos (by simpa [Piece.shown] using hlt)] at hfirst
            exact absurd (List.head?_eq_getElem?.trans hfirst.symm) h.head
      · obtain ⟨j, rfl⟩ := Nat.exists_eq_add_of_le hge
        rw [shown_cons, occursAt_append_add] at hocc
        obtain ⟨before, after, rfl, rfl⟩ := ih j hocc
        exact ⟨p :: before, after, rfl, by rw [shown_cons, List.length_append]⟩

/-! #### The replacements -/

variable [DecidableEq α]

theorem replace_append_of_not_occursAt {front new : List α}
    (h : ∀ i < front.length, ¬ OccursAt pat (front ++ l) i) :
    replace pat new (front ++ l) = front ++ replace pat new l := by
  induction front with
  | nil => rfl
  | cons x front ih =>
      have hnone : ¬ pat <+: x :: (front ++ l) := h 0 (Nat.zero_lt_succ _)
      rw [List.cons_append, replace_cons hnone, List.cons_append]
      exact congrArg (x :: ·) (ih fun i hi => h (i + 1) (Nat.succ_lt_succ hi))

/-- A pass changes the text that is shown as the replacement does. -/
theorem Passed.shown_eq (hpat : pat ≠ []) (hmask : mask ≠ []) (h : Passed pat ps qs)
    (hclear : Clear mask pat ps) :
    shown mask qs = replace pat mask (shown mask ps) := by
  induction h with
  | nil => rfl
  | @found ps qs h ih =>
      rw [shown_append, shown_keeps, replace_append hpat, shown_cons, ih (hclear.of_append hmask)]
      rfl
  | @skip p ps qs hnot h ih =>
      rw [shown_cons, shown_cons, ih (hclear.tail hmask)]
      refine (replace_append_of_not_occursAt fun i hi hocc => ?_).symm
      exact hnot (hclear.keeps_prefix hocc hi)

/-- The masked text is what the replacements make of it, one after the other. -/
theorem shown_passes {pats : List (List α)} (hne : ∀ p ∈ pats, p ≠ []) (hmask : mask ≠ [])
    (hunspoilt : Unspoilt mask pats text) :
    shown mask (passes pats (keeps text)) =
      pats.foldl (fun out pat => replace pat mask out) text := by
  induction pats using List.reverseRecOn with
  | nil => exact shown_keeps
  | append_singleton pats pat ih =>
      have hne' : ∀ p ∈ pats, p ≠ [] := fun p hp => hne p (List.mem_append_left _ hp)
      have hpat : pat ≠ [] := hne pat (List.mem_append_right _ (List.mem_singleton_self _))
      have hpats := ih hne' fun before p after hsplit =>
        hunspoilt before p (after ++ [pat]) (by rw [hsplit, List.append_assoc, List.cons_append])
      rw [passes_append, List.foldl_append, ← hpats]
      refine (passed_pass hpat (passes pats (keeps text))).shown_eq hpat hmask ?_
      refine hunspoilt pats pat [] rfl _ ((origin_passes hne').trans origin_keeps) ?_
      intro segment hmem
      obtain ⟨before, after, hsplit⟩ := List.append_of_mem hmem
      exact mem_of_maskedAt_passes hne' ⟨before, after, hsplit, rfl⟩

end

/-! ### Two readings of one masked text -/

section

/-- The position is behind a mask. -/
def Covered (ps : List (Piece α)) (i : ℕ) : Prop :=
  ∃ segment j, MaskedAt ps segment j ∧ j ≤ i ∧ i < j + segment.length

variable {a : α} {n : ℕ} {p : Piece α} {ps qs : List (Piece α)} {i : ℕ}

theorem covered_cons_of_lt (h : i < p.origin.length) :
    Covered (p :: ps) i ↔ p = .masked p.origin := by
  constructor
  · rintro ⟨segment, j, hmasked, hle, hlt⟩
    obtain ⟨rfl, -⟩ | ⟨k, -, rfl⟩ := maskedAt_cons.mp hmasked
    · rfl
    · omega
  · intro hp
    exact ⟨p.origin, 0, maskedAt_cons.mpr (.inl ⟨hp, rfl⟩), Nat.zero_le _, by omega⟩

theorem covered_cons_add : Covered (p :: ps) (p.origin.length + i) ↔ Covered ps i := by
  constructor
  · rintro ⟨segment, j, hmasked, hle, hlt⟩
    obtain ⟨rfl, rfl⟩ | ⟨k, hk, rfl⟩ := maskedAt_cons.mp hmasked
    · simp only [Piece.origin] at hlt
      omega
    · exact ⟨segment, k, hk, by omega, by omega⟩
  · rintro ⟨segment, j, hmasked, hle, hlt⟩
    exact ⟨segment, _, maskedAt_cons.mpr (.inr ⟨j, hmasked, rfl⟩), by omega, by omega⟩

variable [DecidableEq α]

def Piece.plain (a : α) : Piece α → List ℕ
  | keep x => if x = a then [] else [0]
  | masked _ => []

/-- The positions that are shown, and are not `a`. -/
def plain (a : α) : List (Piece α) → List ℕ
  | [] => []
  | p :: ps => p.plain a ++ (plain a ps).map (p.origin.length + ·)

theorem length_plain :
    (plain a ps).length = ((shown (List.replicate n a) ps).filter (· ≠ a)).length := by
  induction ps with
  | nil => rfl
  | cons p ps ih =>
      rw [plain, List.length_append, List.length_map, shown_cons, List.filter_append,
        List.length_append, ih]
      congr 1
      cases p with
      | keep x =>
          by_cases hx : x = a
          · simp [Piece.plain, Piece.shown, hx]
          · simp [Piece.plain, Piece.shown, hx]
      | masked segment => simp [Piece.plain, Piece.shown]

theorem Piece.mem_plain {p : Piece α} :
    i ∈ p.plain a ↔ i < p.origin.length ∧ p.origin[i]? ≠ some a ∧ p ≠ .masked p.origin := by
  cases p with
  | keep x =>
      by_cases hx : x = a
      · simp only [plain, hx, if_true, List.not_mem_nil, origin, List.length_singleton, false_iff]
        rintro ⟨hlt, hne, -⟩
        obtain rfl : i = 0 := by omega
        exact hne rfl
      · simp only [plain, hx, if_false, List.mem_singleton, origin, List.length_singleton]
        constructor
        · rintro rfl
          simp [hx]
        · rintro ⟨hlt, -⟩
          omega
  | masked segment => simp [plain, origin]

theorem mem_plain : i ∈ plain a ps ↔
    i < (origin ps).length ∧ (origin ps)[i]? ≠ some a ∧ ¬ Covered ps i := by
  induction ps generalizing i with
  | nil => simp [plain]
  | cons p ps ih =>
      rw [plain, List.mem_append, Piece.mem_plain, List.mem_map, origin_cons, List.length_append]
      rcases Nat.lt_or_ge i p.origin.length with hlt | hge
      · rw [covered_cons_of_lt hlt, List.getElem?_append_left hlt]
        constructor
        · rintro (⟨-, hne, hp⟩ | ⟨j, -, rfl⟩)
          · exact ⟨by omega, hne, hp⟩
          · omega
        · rintro ⟨-, hne, hp⟩
          exact .inl ⟨hlt, hne, hp⟩
      · obtain ⟨j, rfl⟩ := Nat.exists_eq_add_of_le hge
        rw [covered_cons_add, List.getElem?_append_right hge, Nat.add_sub_cancel_left]
        constructor
        · rintro (⟨hlt, -⟩ | ⟨k, hk, heq⟩)
          · omega
          · obtain rfl : k = j := by omega
            have hk' := ih.mp hk
            exact ⟨by omega, hk'.2⟩
        · rintro ⟨hlt, hne⟩
          exact .inr ⟨j, ih.mpr ⟨by omega, hne⟩, rfl⟩

theorem nodup_plain : (plain a ps).Nodup := by
  induction ps with
  | nil => exact List.nodup_nil
  | cons p ps ih =>
      refine List.Nodup.append ?_ (ih.map fun i j h => Nat.add_left_cancel h) ?_
      · cases p with
        | keep x =>
            by_cases hx : x = a
            · simp [Piece.plain, hx]
            · simp [Piece.plain, hx]
        | masked segment => exact List.nodup_nil
      · intro i hi hj
        have hlt := (Piece.mem_plain.mp hi).1
        obtain ⟨k, -, rfl⟩ := List.mem_map.mp hj
        omega

/-- Two ways to mask a text that show the same mask the same positions, as soon as one of
them masks no more than the other: as many positions are shown. -/
theorem covered_of_shown_eq (horigin : origin ps = origin qs)
    (hshown : shown (List.replicate n a) ps = shown (List.replicate n a) qs)
    (hsub : ∀ i, Covered ps i → Covered qs i) (hlt : i < (origin ps).length)
    (hplain : (origin ps)[i]? ≠ some a) (hcovered : Covered qs i) : Covered ps i := by
  have hsubset : plain a qs ⊆ plain a ps := by
    intro j hj
    rw [mem_plain, ← horigin] at hj
    exact mem_plain.mpr ⟨hj.1, hj.2.1, fun h => hj.2.2 (hsub j h)⟩
  have hlen : (plain a ps).length ≤ (plain a qs).length := by
    rw [length_plain (n := n), hshown, ← length_plain]
  have hperm := (List.subperm_of_subset nodup_plain hsubset).perm_of_length_le hlen
  by_contra hopen
  have hmem : i ∈ plain a qs := hperm.mem_iff.mpr (mem_plain.mpr ⟨hlt, hplain, hopen⟩)
  exact (mem_plain.mp hmem).2.2 hcovered

end

end DdsOrchestrator.Masking
