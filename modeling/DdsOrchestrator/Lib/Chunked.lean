import Mathlib.Data.Finset.Card
import DdsOrchestrator.Lib.Capped
import DdsOrchestrator.Lib.Machine

/-!
What a machine has in a list that it fills by `put`: a list with a cap and one element for
each number, in which an element gives way to one that is not behind it. An element goes
back to the point at which its number was last appended, and from there on it is the last
of those that nothing is ahead of. While the numbers fit below the cap nothing is lost, and
then the order in which elements come makes no difference.
-/

namespace DdsOrchestrator.Capped

open Machine (trace)

variable {β γ σ ι : Type*}

/-- Nothing before it is ahead of it, and everything after it is behind it. -/
def LatestOf [LT ι] [LE ι] (rank : β → ι) (l : List β) (e : β) : Prop :=
  ∃ before after, l = before ++ e :: after ∧ (∀ b ∈ before, rank b ≤ rank e) ∧
    ∀ b ∈ after, rank b < rank e

section Latest

variable [LinearOrder ι] {rank : β → ι} {l : List β} {e : β}

theorem latestOf_singleton (e : β) : LatestOf rank [e] e :=
  ⟨[], [], rfl, by simp, by simp⟩

theorem LatestOf.rank_le (h : LatestOf rank l e) {b : β} (hb : b ∈ l) : rank b ≤ rank e := by
  obtain ⟨before, after, rfl, hbefore, hafter⟩ := h
  rcases List.mem_append.mp hb with hb | hb
  · exact hbefore b hb
  · rcases List.mem_cons.mp hb with rfl | hb
    · exact le_rfl
    · exact (hafter b hb).le

/-- One more element takes over exactly if it is not behind. -/
theorem LatestOf.concat (h : LatestOf rank l e) (b : β) :
    LatestOf rank (l ++ [b]) (if rank e ≤ rank b then b else e) := by
  by_cases hle : rank e ≤ rank b
  · rw [if_pos hle]
    exact ⟨l, [], rfl, fun d hd => (h.rank_le hd).trans hle, by simp⟩
  · rw [if_neg hle]
    obtain ⟨before, after, rfl, hbefore, hafter⟩ := h
    refine ⟨before, after ++ [b], by simp, hbefore, fun d hd => ?_⟩
    rcases List.mem_append.mp hd with hd | hd
    · exact hafter d hd
    · rw [List.mem_singleton.mp hd]
      exact not_le.mp hle

end Latest

section Fill

variable [DecidableEq γ] {number : β → γ} {newer : β → β → Bool} {cap : ℕ}

variable (number newer cap) in
/-- The number is new and the element is appended, or an element of the number is compared
with it in its place. -/
theorem put_cases (l : List β) (new : β) :
    ((∀ b ∈ l, number b ≠ number new) ∧ put number newer cap l new = append cap l new) ∨
      ∃ before b after, l = before ++ b :: after ∧ number b = number new ∧
        put number newer cap l new =
          before ++ (if newer new b then new else b) :: after := by
  unfold put
  cases h : replace number newer new l with
  | none => exact .inl ⟨replace_eq_none.mp h, rfl⟩
  | some l' =>
      obtain ⟨before, b, after, hl, hb, rfl⟩ := replace_cases h
      exact .inr ⟨before, b, after, hl, hb, rfl⟩

theorem mem_append_cap {l : List β} {new e : β} (he : e ∈ append cap l new) :
    e ∈ l ∨ e = new := by
  unfold append at he
  rcases List.mem_append.mp he with he | he
  · split at he
    · exact .inl (List.mem_of_mem_tail he)
    · exact .inl he
  · exact .inr (List.mem_singleton.mp he)

/-- An element of another number was there before. -/
theorem mem_of_mem_put {l : List β} {new e : β} (hne : number e ≠ number new)
    (he : e ∈ put number newer cap l new) : e ∈ l := by
  rcases put_cases number newer cap l new with
    ⟨-, hput⟩ | ⟨before, b, after, rfl, hb, hput⟩
  · rw [hput] at he
    exact (mem_append_cap he).resolve_right fun h => hne (congrArg number h)
  · rw [hput, List.mem_append, List.mem_cons] at he
    rcases he with he | rfl | he
    · exact List.mem_append_left _ he
    · split at hne
      · exact absurd rfl hne
      · exact absurd hb hne
    · exact List.mem_append_right _ (List.mem_cons_of_mem _ he)

/-- The element of the number that has come. -/
theorem eq_of_mem_put {l : List β} {new e : β} (hl : (l.map number).Nodup)
    (hnumber : number e = number new) (he : e ∈ put number newer cap l new) :
    ((∀ b ∈ l, number b ≠ number new) ∧ e = new) ∨
      ∃ b ∈ l, number b = number new ∧ e = if newer new b then new else b := by
  rcases put_cases number newer cap l new with
    ⟨habsent, hput⟩ | ⟨before, b, after, rfl, hb, hput⟩
  · rw [hput] at he
    exact .inl ⟨habsent, (mem_append_cap he).resolve_left fun h => habsent e h hnumber⟩
  · refine .inr ⟨b, List.mem_append_right _ (List.mem_cons_self ..), hb, ?_⟩
    -- no other element has the number
    rw [List.map_append, List.map_cons, List.nodup_middle, ← List.map_append] at hl
    have hother : e ∉ before ++ after := fun h =>
      (List.nodup_cons.mp hl).1 (List.mem_map.mpr ⟨e, h, hnumber.trans hb.symm⟩)
    rw [hput, List.mem_append, List.mem_cons] at he
    rcases he with he | he | he
    · exact absurd (List.mem_append_left _ he) hother
    · exact he
    · exact absurd (List.mem_append_right _ he) hother

/-- A number that is there stays unless the list is full and another number comes. -/
theorem length_put_le {l : List β} (hcap : 0 < cap) (hl : l.length ≤ cap) (new : β) :
    (put number newer cap l new).length ≤ cap := by
  rcases put_cases number newer cap l new with
    ⟨-, hput⟩ | ⟨before, b, after, rfl, -, hput⟩
  · rw [hput, append]
    split
    · rw [List.length_append, List.length_tail, List.length_singleton]
      omega
    · rw [List.length_append, List.length_singleton]
      omega
  · rw [hput]
    simpa using hl

/-- Below the cap the numbers that are there stay, and that of the new element is there. -/
theorem number_mem_put {l : List β} {new : β} {n : γ}
    (hroom : (∃ b ∈ l, number b = number new) ∨ l.length < cap)
    (hn : n ∈ l.map number ∨ n = number new) :
    n ∈ (put number newer cap l new).map number := by
  rcases put_cases number newer cap l new with
    ⟨habsent, hput⟩ | ⟨before, b, after, rfl, hb, hput⟩
  · have hlt : l.length < cap := hroom.resolve_left fun ⟨b, hmem, hb⟩ => habsent b hmem hb
    rw [hput, append, if_neg (not_le.mpr hlt), List.map_append]
    rcases hn with hn | rfl
    · exact List.mem_append_left _ hn
    · exact List.mem_append_right _ (List.mem_singleton_self _)
  · have hsame : number (if newer new b then new else b) = number b := by
      split
      · exact hb.symm
      · rfl
    rw [hput, List.map_append, List.map_cons, hsame, ← List.map_cons, ← List.map_append]
    rcases hn with hn | rfl
    · exact hn
    · exact List.mem_map.mpr ⟨b, List.mem_append_right _ (List.mem_cons_self ..), hb⟩

/-- The list that these elements leave behind. -/
def fill (number : β → γ) (newer : β → β → Bool) (cap : ℕ) (bs : List β) : List β :=
  bs.foldl (put number newer cap) []

theorem fill_concat (bs : List β) (b : β) :
    fill number newer cap (bs ++ [b]) = put number newer cap (fill number newer cap bs) b := by
  simp [fill]

theorem nodup_fill (bs : List β) : ((fill number newer cap bs).map number).Nodup := by
  induction bs using List.reverseRecOn with
  | nil => exact List.nodup_nil
  | append_singleton bs b ih => rw [fill_concat]; exact nodup_put ih

theorem length_fill_le (hcap : 0 < cap) (bs : List β) :
    (fill number newer cap bs).length ≤ cap := by
  induction bs using List.reverseRecOn with
  | nil => exact Nat.zero_le _
  | append_singleton bs b ih => rw [fill_concat]; exact length_put_le hcap ih b

theorem fill_subset (bs : List β) : fill number newer cap bs ⊆ bs := by
  induction bs using List.reverseRecOn with
  | nil => exact List.Subset.refl _
  | append_singleton bs b ih =>
      intro e he
      rw [fill_concat] at he
      by_cases hnumber : number e = number b
      · rcases eq_of_mem_put (nodup_fill bs) hnumber he with ⟨-, rfl⟩ | ⟨d, hd, -, rfl⟩
        · exact List.mem_append_right _ (List.mem_singleton_self _)
        · split
          · exact List.mem_append_right _ (List.mem_singleton_self _)
          · exact List.mem_append_left _ (ih hd)
      · exact List.mem_append_left _ (ih (mem_of_mem_put hnumber he))

/-! ### While the numbers fit -/

theorem card_numbers_concat_le (bs : List β) (b : β) :
    (bs.map number).toFinset.card ≤ ((bs ++ [b]).map number).toFinset.card := by
  apply Finset.card_le_card
  intro n hn
  rw [List.mem_toFinset] at hn ⊢
  rw [List.map_append]
  exact List.mem_append_left _ hn

/-- No number is lost. -/
theorem number_mem_fill {bs : List β} (hcap : (bs.map number).toFinset.card ≤ cap) {n : γ}
    (hn : n ∈ bs.map number) : n ∈ (fill number newer cap bs).map number := by
  induction bs using List.reverseRecOn generalizing n with
  | nil => cases hn
  | append_singleton bs b ih =>
      have hheld := @ih ((card_numbers_concat_le bs b).trans hcap)
      rw [fill_concat]
      apply number_mem_put
      · by_cases hnew : number b ∈ bs.map number
        · exact .inl (List.mem_map.mp (hheld hnew))
        · -- the numbers of the list are some of those that have come, and this one is not
          right
          have hlength : (fill number newer cap bs).length ≤ (bs.map number).toFinset.card := by
            calc (fill number newer cap bs).length
                = ((fill number newer cap bs).map number).toFinset.card := by
                  rw [List.toFinset_card_of_nodup (nodup_fill bs), List.length_map]
              _ ≤ (bs.map number).toFinset.card := by
                  apply Finset.card_le_card
                  intro m hm
                  rw [List.mem_toFinset] at hm ⊢
                  exact List.map_subset number (fill_subset bs) hm
          have hcard : ((bs ++ [b]).map number).toFinset.card =
              (bs.map number).toFinset.card + 1 := by
            rw [List.map_append, List.map_singleton, List.toFinset_append,
              Finset.union_comm, List.toFinset_cons, List.toFinset_nil, insert_empty_eq,
              ← Finset.insert_eq, Finset.card_insert_of_notMem (by simpa using hnew)]
          omega
      · rw [List.map_append, List.map_singleton] at hn
        rcases List.mem_append.mp hn with hn | hn
        · exact .inl (hheld hn)
        · exact .inr (List.mem_singleton.mp hn)

variable [LinearOrder ι] {rank : β → ι}

/-- Nothing of its number is ahead of an element that is held. -/
theorem rank_le_of_mem_fill (hnewer : ∀ new cur, newer new cur = true ↔ rank cur ≤ rank new)
    {bs : List β} (hcap : (bs.map number).toFinset.card ≤ cap) {e b : β}
    (he : e ∈ fill number newer cap bs) (hb : b ∈ bs) (hnumber : number b = number e) :
    rank b ≤ rank e := by
  induction bs using List.reverseRecOn generalizing e b with
  | nil => cases hb
  | append_singleton bs new ih =>
      have hcap' := (card_numbers_concat_le bs new).trans hcap
      rw [fill_concat] at he
      by_cases hnew : number e = number new
      · rcases eq_of_mem_put (nodup_fill bs) hnew he with ⟨habsent, rfl⟩ | ⟨d, hd, hdnumber, rfl⟩
        · rcases List.mem_append.mp hb with hb | hb
          · have hmem : number e ∈ (fill number newer cap bs).map number :=
              number_mem_fill hcap' (List.mem_map.mpr ⟨b, hb, hnumber⟩)
            obtain ⟨d, hd, hdnumber⟩ := List.mem_map.mp hmem
            exact absurd hdnumber (habsent d hd)
          · rw [List.mem_singleton.mp hb]
        · have hle : rank d ≤ rank (if newer new d then new else d) ∧
              rank new ≤ rank (if newer new d then new else d) := by
            split
            · next h => exact ⟨(hnewer new d).mp h, le_rfl⟩
            · next h => exact ⟨le_rfl, (not_le.mp fun hle => h ((hnewer new d).mpr hle)).le⟩
          rcases List.mem_append.mp hb with hb | hb
          · exact (ih hcap' hd hb (hnumber.trans (hnew.trans hdnumber.symm))).trans hle.1
          · rw [List.mem_singleton.mp hb]
            exact hle.2
      · rcases List.mem_append.mp hb with hb | hb
        · exact ih hcap' (mem_of_mem_put hnew he) hb hnumber
        · rw [List.mem_singleton.mp hb] at hnumber
          exact absurd hnumber.symm hnew

/-- Where the rank tells the elements of a number apart, the list holds the highest ones. -/
theorem mem_fill_iff (hnewer : ∀ new cur, newer new cur = true ↔ rank cur ≤ rank new)
    {bs : List β} (hcap : (bs.map number).toFinset.card ≤ cap)
    (hties : ∀ b ∈ bs, ∀ d ∈ bs, number b = number d → rank b = rank d → b = d) {e : β} :
    e ∈ fill number newer cap bs ↔
      e ∈ bs ∧ ∀ b ∈ bs, number b = number e → rank b ≤ rank e := by
  constructor
  · intro he
    exact ⟨fill_subset bs he, fun b hb hnumber => rank_le_of_mem_fill hnewer hcap he hb hnumber⟩
  · rintro ⟨he, hmax⟩
    have hmem : number e ∈ (fill number newer cap bs).map number :=
      number_mem_fill hcap (List.mem_map.mpr ⟨e, he, rfl⟩)
    obtain ⟨d, hd, hnumber⟩ := List.mem_map.mp hmem
    have hle := hmax d (fill_subset bs hd) hnumber
    have hge := rank_le_of_mem_fill hnewer hcap hd he hnumber.symm
    rwa [hties e he d (fill_subset bs hd) hnumber.symm (le_antisymm hge hle)]

/-- Then the order makes no difference. -/
theorem mem_fill_perm (hnewer : ∀ new cur, newer new cur = true ↔ rank cur ≤ rank new)
    {bs bs' : List β} (hperm : bs.Perm bs') (hcap : (bs.map number).toFinset.card ≤ cap)
    (hties : ∀ b ∈ bs, ∀ d ∈ bs, number b = number d → rank b = rank d → b = d) {e : β} :
    e ∈ fill number newer cap bs ↔ e ∈ fill number newer cap bs' := by
  have hcap' : (bs'.map number).toFinset.card ≤ cap := by
    rwa [← List.toFinset_eq_of_perm _ _ (hperm.map number)]
  have hties' : ∀ b ∈ bs', ∀ d ∈ bs', number b = number d → rank b = rank d → b = d :=
    fun b hb d hd => hties b (hperm.mem_iff.mpr hb) d (hperm.mem_iff.mpr hd)
  rw [mem_fill_iff hnewer hcap hties, mem_fill_iff hnewer hcap' hties', hperm.mem_iff]
  exact and_congr_right fun _ => forall_congr' fun b => by rw [hperm.mem_iff]

end Fill

/-! ### Machines -/

section Machines

variable [DecidableEq γ] {number : β → γ} {newer : β → β → Bool} {cap : ℕ}
variable (step : σ → β → σ) (view : σ → List β) (takes : σ → β → Prop)
variable [∀ s b, Decidable (takes s b)]

/-- The elements of a run that are taken. -/
def taken (s : σ) (bs : List β) : List β :=
  trace step (fun s b => if takes s b then [b] else []) s bs

theorem taken_concat (s : σ) (bs : List β) (b : β) :
    taken step takes s (bs ++ [b]) =
      taken step takes s bs ++ if takes (bs.foldl step s) b then [b] else [] := by
  rw [taken, Machine.trace_append]
  simp [taken, trace]

/-- Each step puts the element into the list or leaves the list as it is. -/
def Fills (number : β → γ) (newer : β → β → Bool) (cap : ℕ) : Prop :=
  ∀ s b, view (step s b) = if takes s b then put number newer cap (view s) b else view s

variable {step view takes} {s : σ} {bs : List β}

theorem Fills.view_run (h : Fills step view takes number newer cap) (hs : view s = []) :
    view (bs.foldl step s) = fill number newer cap (taken step takes s bs) := by
  induction bs using List.reverseRecOn with
  | nil => exact hs
  | append_singleton bs b ih =>
      rw [List.foldl_append, List.foldl_cons, List.foldl_nil, h, ih, taken_concat]
      split
      · rw [fill_concat]
      · rw [List.append_nil]

variable (number step view takes) in
/-- With `first` the number was appended, it has been in the list ever since, and the
element is the latest of those that nothing is ahead of. -/
structure HeldSince [LinearOrder ι] (rank : β → ι) (s : σ) (e : β) (before : List β) (first : β)
    (after : List β) : Prop where
  taken_first : takes (before.foldl step s) first
  number_first : number first = number e
  absent : ∀ b ∈ view (before.foldl step s), number b ≠ number e
  present : ∀ m x m', after = m ++ x :: m' →
    number e ∈ (view ((before ++ first :: m).foldl step s)).map number
  latest : LatestOf rank ((taken step takes (before.foldl step s) (first :: after)).filter
    fun b => number b = number e) e

variable [LinearOrder ι] {rank : β → ι}

/-- The element of the same number after one more step. -/
theorem HeldSince.concat {e e' b first : β} {before after : List β}
    (h : HeldSince number step view takes rank s e before first after)
    (he : e ∈ view ((before ++ first :: after).foldl step s)) (hnumber : number e' = number e)
    (hlatest : ∀ l, LatestOf rank l e → LatestOf rank (l ++
      (if takes ((before ++ first :: after).foldl step s) b then [b] else []).filter
        fun d => number d = number e) e') :
    HeldSince number step view takes rank s e' before first (after ++ [b]) := by
  refine ⟨h.taken_first, h.number_first.trans hnumber.symm, by rw [hnumber]; exact h.absent, ?_, ?_⟩
  · intro m x m' hsplit
    rw [hnumber]
    rcases List.eq_nil_or_concat m' with rfl | ⟨m'', y, rfl⟩
    · obtain ⟨rfl, -⟩ := List.append_inj' hsplit rfl
      exact List.mem_map.mpr ⟨e, he, rfl⟩
    · rw [List.concat_eq_append, ← List.cons_append, ← List.append_assoc] at hsplit
      exact h.present m x m'' (List.append_inj' hsplit rfl).1
  · have hafter := hlatest _ h.latest
    rw [List.foldl_append] at hafter
    rw [← List.cons_append, taken_concat, List.filter_append, hnumber]
    exact hafter

theorem Fills.heldSince (h : Fills step view takes number newer cap) (hs : view s = [])
    (hnewer : ∀ new cur, newer new cur = true ↔ rank cur ≤ rank new) {e : β}
    (he : e ∈ view (bs.foldl step s)) :
    ∃ before first after, bs = before ++ first :: after ∧
      HeldSince number step view takes rank s e before first after := by
  induction bs using List.reverseRecOn generalizing e with
  | nil => rw [List.foldl_nil, hs] at he; cases he
  | append_singleton bs b ih =>
      have hview := h (bs.foldl step s) b
      rw [List.foldl_append, List.foldl_cons, List.foldl_nil, hview] at he
      -- an element that was there and is not touched
      have hkept : e ∈ view (bs.foldl step s) →
          (takes (bs.foldl step s) b → number b ≠ number e) →
          ∃ before first after, bs ++ [b] = before ++ first :: after ∧
            HeldSince number step view takes rank s e before first after := by
        intro hmem hother
        obtain ⟨before, first, after, rfl, hsince⟩ := ih hmem
        refine ⟨before, first, after ++ [b], by simp, hsince.concat hmem rfl fun l hl => ?_⟩
        split
        · next htakes => simpa [hother htakes] using hl
        · simpa using hl
      split at he
      · next htakes =>
          by_cases hnumber : number e = number b
          · have hnodup : ((view (bs.foldl step s)).map number).Nodup := by
              rw [h.view_run hs]
              exact nodup_fill _
            rcases eq_of_mem_put hnodup hnumber he with ⟨habsent, rfl⟩ | ⟨d, hd, hdnumber, rfl⟩
            · refine ⟨bs, e, [], rfl, htakes, rfl, habsent, by simp, ?_⟩
              simpa [taken, trace, htakes] using latestOf_singleton e
            · obtain ⟨before, first, after, rfl, hsince⟩ := ih hd
              refine ⟨before, first, after ++ [b], by simp,
                hsince.concat hd (hnumber.trans hdnumber.symm) fun l hl => ?_⟩
              rw [if_pos htakes, List.filter_cons, if_pos (by simp [hdnumber]), List.filter_nil]
              simp only [hnewer]
              exact hl.concat b
          · exact hkept (mem_of_mem_put hnumber he) fun _ h => hnumber h.symm
      · next htakes => exact hkept he fun h => absurd h htakes

end Machines

end DdsOrchestrator.Capped
