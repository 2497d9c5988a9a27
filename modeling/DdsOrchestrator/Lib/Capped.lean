import Mathlib.Data.List.Induction
import DdsOrchestrator.Lib.Assoc

/-!
Caches of a bounded size. A map takes a new key while it is below its cap, and under a key
that it holds a rule says whether the value that comes wins. A list drops its oldest
element at its cap, and can hold at most one element of each number.
-/

namespace DdsOrchestrator.Capped

variable {α β γ : Type*}

section Keys

variable [DecidableEq α]

/-- The key is held, or there is room for one more. -/
def acceptsKey (cap : Nat) (m : Map α β) (a : α) : Bool :=
  (m.lookup a).isSome || m.keys.length < cap

/-- What is held after `new` has come. -/
def winner (wins : β → β → Bool) (cur : Option β) (new : β) : β :=
  match cur with
  | some cur => if wins new cur then new else cur
  | none => new

def upsert (wins : β → β → Bool) (m : Map α β) (a : α) (new : β) : Map α β :=
  match m.lookup a with
  | some cur => if wins new cur then m.insert a new else m
  | none => m.insert a new

def removeAll (as : List α) (m : Map α β) : Map α β :=
  as.foldl (fun m a => m.erase a) m

@[simp] theorem winner_none (wins : β → β → Bool) (new : β) : winner wins none new = new := rfl

theorem winner_some (wins : β → β → Bool) (cur new : β) :
    winner wins (some cur) new = if wins new cur then new else cur := rfl

@[simp] theorem winner_last (cur : Option β) (new : β) :
    winner (fun _ _ => true) cur new = new := by
  cases cur <;> rfl

theorem lookup_upsert (wins : β → β → Bool) (m : Map α β) (a b : α) (new : β) :
    (upsert wins m a new).lookup b =
      if b = a then some (winner wins (m.lookup a) new) else m.lookup b := by
  unfold upsert
  split
  · next cur hcur =>
      rw [hcur, winner_some]
      split
      · exact Map.lookup_insert_if _ _ _ _
      · split
        · next hb => rw [hb, hcur]
        · rfl
  · next hnone =>
      rw [hnone, winner_none]
      exact Map.lookup_insert_if _ _ _ _

theorem lookup_removeAll (as : List α) (m : Map α β) (b : α) :
    (removeAll as m).lookup b = if b ∈ as then none else m.lookup b := by
  induction as generalizing m with
  | nil => simp [removeAll]
  | cons a as ih =>
      show (removeAll as (m.erase a)).lookup b = _
      rw [ih, Map.lookup_erase_if]
      by_cases hmem : b ∈ as
      · simp [hmem]
      · by_cases hab : b = a
        · simp [hab]
        · simp [hmem, hab]

/-! ### Maps with the same contents -/

/-- Under every key the maps hold the same. -/
def Same (m m' : Map α β) : Prop := ∀ a, m.lookup a = m'.lookup a

variable {m m' : Map α β}

theorem Same.length_keys (h : Same m m') : m.keys.length = m'.keys.length :=
  le_antisymm (Map.length_keys_le fun a _ hv => (h a).symm.trans hv)
    (Map.length_keys_le fun a _ hv => (h a).trans hv)

theorem Same.acceptsKey (h : Same m m') (cap : Nat) (a : α) :
    Capped.acceptsKey cap m a = Capped.acceptsKey cap m' a := by
  rw [Capped.acceptsKey, Capped.acceptsKey, h a, h.length_keys]

theorem Same.insert (h : Same m m') (a : α) (v : β) : Same (m.insert a v) (m'.insert a v) := by
  intro b
  rw [Map.lookup_insert_if, Map.lookup_insert_if, h b]

theorem Same.removeAll (h : Same m m') {as as' : List α} (has : ∀ a, a ∈ as ↔ a ∈ as') :
    Same (removeAll as m) (removeAll as' m') := by
  intro b
  rw [lookup_removeAll, lookup_removeAll, h b]
  simp only [has]

/-- An insertion does what the rule does exactly if the value wins or is held already. -/
theorem same_insert_upsert_iff (h : Same m m') {wins : β → β → Bool} {a : α} {new : β} :
    Same (m.insert a new) (upsert wins m' a new) ↔
      ∀ cur, m'.lookup a = some cur → wins new cur = true ∨ cur = new := by
  have hother : ∀ b, b ≠ a → (m.insert a new).lookup b = (upsert wins m' a new).lookup b := by
    intro b hb
    rw [Map.lookup_insert_if, if_neg hb, lookup_upsert, if_neg hb, h b]
  have hself : (m.insert a new).lookup a = (upsert wins m' a new).lookup a ↔
      winner wins (m'.lookup a) new = new := by
    rw [Map.lookup_insert_if, if_pos rfl, lookup_upsert, if_pos rfl, Option.some.injEq, eq_comm]
  have hsame : Same (m.insert a new) (upsert wins m' a new) ↔
      winner wins (m'.lookup a) new = new := by
    rw [← hself]
    refine ⟨fun h => h a, fun ha b => ?_⟩
    by_cases hb : b = a
    · rw [hb, ha]
    · exact hother b hb
  rw [hsame]
  cases m'.lookup a with
  | none => simp
  | some cur =>
      rw [winner_some]
      split
      · next hwins => simp [hwins]
      · next hloses => simp [hloses]

end Keys

/-! ### Lists with a cap -/

/-- At the cap the oldest element goes. -/
def append (cap : Nat) (l : List β) (new : β) : List β :=
  (if cap ≤ l.length then l.tail else l) ++ [new]

theorem mem_append_self (cap : Nat) (l : List β) (new : β) : new ∈ append cap l new :=
  List.mem_append_right _ (List.mem_singleton_self new)

theorem nodup_append {number : β → γ} {cap : Nat} {l : List β} {new : β}
    (hl : (l.map number).Nodup) (hnew : ∀ b ∈ l, number b ≠ number new) :
    ((append cap l new).map number).Nodup := by
  have hsublist : List.Sublist (if cap ≤ l.length then l.tail else l) l := by
    split
    · exact List.tail_sublist l
    · exact List.Sublist.refl l
  rw [append, List.map_append, List.map_singleton]
  refine List.Nodup.append (hl.sublist (hsublist.map number)) (List.nodup_singleton _) ?_
  intro n hn hn'
  obtain ⟨b, hb, rfl⟩ := List.mem_map.mp hn
  exact hnew b (hsublist.subset hb) (List.mem_singleton.mp hn')

section Numbered

variable [DecidableEq γ] (number : β → γ) (newer : β → β → Bool)

/-- The first element with the number of `new` gives way to it if `new` is not older. -/
def replace (new : β) : List β → Option (List β)
  | [] => none
  | b :: bs =>
      if number b = number new then some ((if newer new b then new else b) :: bs)
      else (replace new bs).map (b :: ·)

/-- One element for each number. -/
def put (cap : Nat) (l : List β) (new : β) : List β :=
  (replace number newer new l).getD (append cap l new)

variable {number newer} {new : β} {l : List β}

theorem replace_eq_none : replace number newer new l = none ↔ ∀ b ∈ l, number b ≠ number new := by
  induction l with
  | nil => simp [replace]
  | cons b bs ih =>
      unfold replace
      split
      · next h => simp [h]
      · next h => simp [ih, h]

theorem replace_map_number {l' : List β} (h : replace number newer new l = some l') :
    l'.map number = l.map number := by
  induction l generalizing l' with
  | nil => cases h
  | cons b bs ih =>
      unfold replace at h
      split at h
      · next hb =>
          cases h
          split
          · simp [hb]
          · rfl
      · obtain ⟨bs', hbs', rfl⟩ := Option.map_eq_some_iff.mp h
        simp [ih hbs']

theorem replace_cases {l' : List β} (h : replace number newer new l = some l') :
    ∃ before b after, l = before ++ b :: after ∧ number b = number new ∧
      l' = before ++ (if newer new b then new else b) :: after := by
  induction l generalizing l' with
  | nil => cases h
  | cons b bs ih =>
      unfold replace at h
      split at h
      · next hb =>
          cases h
          exact ⟨[], b, bs, rfl, hb, rfl⟩
      · obtain ⟨bs', hbs', rfl⟩ := Option.map_eq_some_iff.mp h
        obtain ⟨before, b', after, rfl, hb', rfl⟩ := ih hbs'
        exact ⟨b :: before, b', after, rfl, hb', rfl⟩

/-- The numbers stay distinct. -/
theorem nodup_put {cap : Nat} (hl : (l.map number).Nodup) :
    ((put number newer cap l new).map number).Nodup := by
  unfold put
  cases h : replace number newer new l with
  | none => exact nodup_append hl (replace_eq_none.mp h)
  | some l' =>
      rw [Option.getD_some, replace_map_number h]
      exact hl

/-- An element is in the list after its arrival unless an element of its number is newer. -/
theorem mem_put_iff {cap : Nat} (hl : (l.map number).Nodup) (hrefl : newer new new = true) :
    new ∈ put number newer cap l new ↔ ∀ b ∈ l, number b = number new → newer new b = true := by
  unfold put
  cases h : replace number newer new l with
  | none =>
      refine iff_of_true (mem_append_self cap l new) fun b hb hnumber => ?_
      exact absurd hnumber (replace_eq_none.mp h b hb)
  | some l' =>
      obtain ⟨before, b, after, rfl, hb, rfl⟩ := replace_cases h
      -- no other element has the number
      have hother : ∀ b' ∈ before ++ after, number b' ≠ number new := by
        intro b' hb' hnumber
        rw [List.map_append, List.map_cons, List.nodup_middle, ← List.map_append] at hl
        exact (List.nodup_cons.mp hl).1 (List.mem_map.mpr ⟨b', hb', hnumber.trans hb.symm⟩)
      have hnotin : new ∉ before ++ after := fun hnew => hother new hnew rfl
      rw [Option.getD_some]
      constructor
      · intro hmem b' hb' hnumber
        by_cases hnewer : newer new b = true
        · rcases List.mem_append.mp hb' with hbefore | hafter
          · exact absurd hnumber (hother b' (List.mem_append_left _ hbefore))
          · rcases List.mem_cons.mp hafter with rfl | hafter
            · exact hnewer
            · exact absurd hnumber (hother b' (List.mem_append_right _ hafter))
        · rw [if_neg hnewer] at hmem
          rcases List.mem_append.mp hmem with hbefore | hafter
          · exact absurd (List.mem_append_left _ hbefore) hnotin
          · rcases List.mem_cons.mp hafter with rfl | hafter
            · exact absurd hrefl hnewer
            · exact absurd (List.mem_append_right _ hafter) hnotin
      · intro hall
        have hnewer := hall b (List.mem_append_right _ (List.mem_cons_self ..)) hb
        rw [if_pos hnewer]
        exact List.mem_append_right _ (List.mem_cons_self ..)

/-- Numbers make no difference exactly if the number is new. -/
theorem put_eq_append_iff {cap : Nat} (hcap : 2 ≤ cap) (hl : (l.map number).Nodup) :
    put number newer cap l new = append cap l new ↔ ∀ b ∈ l, number b ≠ number new := by
  have hnone : replace number newer new l = none ↔ _ := replace_eq_none
  rw [← hnone]
  unfold put
  cases h : replace number newer new l with
  | none => simp
  | some l' =>
      refine iff_of_false (fun heq => ?_) (by simp)
      rw [Option.getD_some] at heq
      have hnumbers := replace_map_number h
      rw [heq, append, List.map_append, List.map_singleton] at hnumbers
      split at hnumbers
      · next hfull =>
          -- each number would be that of its successor
          cases l with
          | nil => simp at hfull; omega
          | cons a rest =>
              cases rest with
              | nil => simp at hfull; omega
              | cons b rest =>
                  simp only [List.tail_cons, List.map_cons, List.cons_append,
                    List.cons.injEq] at hnumbers
                  rw [List.map_cons, List.map_cons, List.nodup_cons] at hl
                  exact hl.1 (hnumbers.1 ▸ List.mem_cons_self ..)
      · have hlength := congrArg List.length hnumbers
        simp at hlength

end Numbered

/-! ### One key over time -/

section Settle

variable (wins : β → β → Bool)

/-- What is held under a key after these values have come. -/
def settle (cur : Option β) (bs : List β) : Option β :=
  bs.foldl (fun cur b => some (winner wins cur b)) cur

theorem settle_concat (cur : Option β) (bs : List β) (b : β) :
    settle wins cur (bs ++ [b]) = some (winner wins (settle wins cur bs) b) := by
  simp [settle]

variable {wins}

/-- A value that wins follows the one it replaces, and so does everything after it. -/
theorem settle_follows {R : β → β → Prop} (hrefl : ∀ b, R b b)
    (htrans : ∀ a b d, R a b → R b d → R a d)
    (hwins : ∀ new cur, wins new cur = true → R cur new) (cur : β) (bs : List β) :
    ∃ last, settle wins (some cur) bs = some last ∧ R cur last := by
  induction bs generalizing cur with
  | nil => exact ⟨cur, rfl, hrefl cur⟩
  | cons b bs ih =>
      obtain ⟨last, hlast, hfollows⟩ := ih (winner wins (some cur) b)
      refine ⟨last, hlast, htrans _ _ _ ?_ hfollows⟩
      rw [winner_some]
      split
      · next h => exact hwins b cur h
      · exact hrefl cur

/-- Where the rule is that of a rank, a value of the highest rank is held in the end. -/
theorem settle_highest {ι : Type*} [LinearOrder ι] (rank : β → ι) {bs : List β}
    (hwins : ∀ new ∈ bs, ∀ cur ∈ bs, wins new cur = true ↔ rank cur ≤ rank new) (hne : bs ≠ []) :
    ∃ last ∈ bs, settle wins none bs = some last ∧ ∀ b ∈ bs, rank b ≤ rank last := by
  induction bs using List.reverseRecOn with
  | nil => exact absurd rfl hne
  | append_singleton bs b ih =>
      rw [settle_concat]
      cases bs with
      | nil =>
          refine ⟨b, List.mem_singleton_self b, rfl, fun b' hb' => ?_⟩
          rw [List.mem_singleton.mp hb']
      | cons a as =>
          have hsub : ∀ b' ∈ a :: as, b' ∈ a :: as ++ [b] := fun b' => List.mem_append_left _
          have hlastmem : b ∈ a :: as ++ [b] := List.mem_append_right _ (List.mem_singleton_self b)
          obtain ⟨last, hmem, hlast, hmax⟩ := ih
            (fun new hnew cur hcur => hwins new (hsub new hnew) cur (hsub cur hcur)) (by simp)
          have hiff := hwins b hlastmem last (hsub last hmem)
          rw [hlast, winner_some]
          split
          · next hwin =>
              refine ⟨b, hlastmem, rfl, fun b' hb' => ?_⟩
              rcases List.mem_append.mp hb' with hold | hnew
              · exact (hmax b' hold).trans (hiff.mp hwin)
              · rw [List.mem_singleton.mp hnew]
          · next hlose =>
              refine ⟨last, hsub last hmem, rfl, fun b' hb' => ?_⟩
              rcases List.mem_append.mp hb' with hold | hnew
              · exact hmax b' hold
              · rw [List.mem_singleton.mp hnew]
                exact (not_le.mp fun hle => hlose (hiff.mpr hle)).le

end Settle

end DdsOrchestrator.Capped
