import Mathlib.Data.List.Induction
import Mathlib.Data.Set.Insert
import Mathlib.Order.Defs.LinearOrder
import DdsOrchestrator.Lib.Assoc

/-!
Maps that keep one value a key, the one of the highest revision offered. A value
goes under its own key, and it is taken unless a value of a higher revision is held.
What such a map ends up with is a matter of the values offered and not of their
order, as long as the revision tells values of one key apart. Where it does not, the
last of the highest ones stays, and a finer revision need not be the highest.
-/

namespace DdsOrchestrator

/-- A map whose values stand under their own keys. -/
structure Latest {K V : Type*} [DecidableEq K] (key : V → K) where
  held : Map K V
  keyed : ∀ {k : K} {v : V}, held.lookup k = some v → key v = k

namespace Latest

variable {K V R : Type*} [DecidableEq K] {key : V → K}

def empty : Latest key := ⟨∅, fun h => by simp at h⟩

def get? (m : Latest key) (k : K) : Option V := m.held.lookup k

theorem key_of_get? {m : Latest key} {k : K} {v : V} (h : m.get? k = some v) : key v = k :=
  m.keyed h

/-- The values, in no order that matters. -/
def values (m : Latest key) : List V := m.held.entries.map (·.2)

theorem mem_values {m : Latest key} {v : V} : v ∈ m.values ↔ m.get? (key v) = some v := by
  constructor
  · intro h
    obtain ⟨⟨k, w⟩, he, rfl⟩ := List.mem_map.mp h
    have hlookup := Map.mem_entries.mp he
    rwa [← key_of_get? (m := m) hlookup] at hlookup
  · intro h
    exact List.mem_map.mpr ⟨⟨key v, v⟩, Map.mem_entries.mpr h, rfl⟩

/-- The key of a value determines it. -/
theorem eq_of_mem_values {m : Latest key} {v w : V} (hv : v ∈ m.values) (hw : w ∈ m.values)
    (h : key v = key w) : v = w := by
  rw [mem_values] at hv hw
  rw [h, hw] at hv
  exact (Option.some.inj hv).symm

def insert (v : V) (m : Latest key) : Latest key where
  held := m.held.insert (key v) v
  keyed := by
    intro k w h
    rcases Map.lookup_insert_eq_some.mp h with ⟨rfl, rfl⟩ | ⟨-, h⟩
    · rfl
    · exact m.keyed h

@[simp] theorem get?_empty (k : K) : (empty : Latest key).get? k = none := rfl

theorem get?_insert (v : V) (m : Latest key) (k : K) :
    (m.insert v).get? k = if k = key v then some v else m.get? k :=
  Map.lookup_insert_if _ _ _ _

variable [LinearOrder R] (rev : V → R)

/-- A value that is behind the one held is dropped. -/
def offer (m : Latest key) (v : V) : Latest key :=
  match m.get? (key v) with
  | some cur => if rev v < rev cur then m else m.insert v
  | none => m.insert v

theorem offer_of_lt {m : Latest key} {v cur : V} (h : m.get? (key v) = some cur)
    (hlt : rev v < rev cur) : m.offer rev v = m := by
  simp [offer, h, hlt]

theorem offer_of_le {m : Latest key} {v : V}
    (h : ∀ cur, m.get? (key v) = some cur → rev cur ≤ rev v) : m.offer rev v = m.insert v := by
  unfold offer
  split
  · next cur hcur => rw [if_neg (not_lt_of_ge (h cur hcur))]
  · rfl

/-- The map holds offered values only, and for each of them one that is not behind
it. -/
structure Newest (offered : Set V) (m : Latest key) : Prop where
  covers : ∀ v ∈ offered, ∃ w, m.get? (key v) = some w ∧ rev v ≤ rev w
  offered : ∀ w ∈ m.values, w ∈ offered

theorem newest_empty : Newest rev ∅ (empty : Latest key) := by
  constructor
  · simp
  · simp [mem_values]

/-- One more value is offered. -/
theorem Newest.offer {S : Set V} {m : Latest key} (h : Newest rev S m) (v : V) :
    Newest rev (Insert.insert v S) (m.offer rev v) := by
  by_cases hbehind : ∃ cur, m.get? (key v) = some cur ∧ rev v < rev cur
  · obtain ⟨cur, hcur, hlt⟩ := hbehind
    rw [offer_of_lt rev hcur hlt]
    constructor
    · rintro u (rfl | hu)
      · exact ⟨cur, hcur, hlt.le⟩
      · exact h.covers u hu
    · exact fun w hw => .inr (h.offered w hw)
  · have hle : ∀ cur, m.get? (key v) = some cur → rev cur ≤ rev v := fun cur hcur =>
      not_lt.mp fun hlt => hbehind ⟨cur, hcur, hlt⟩
    rw [offer_of_le rev hle]
    constructor
    · intro u hu
      rw [get?_insert]
      split
      · next hkey =>
          refine ⟨v, rfl, ?_⟩
          rcases hu with rfl | hu
          · exact le_rfl
          · obtain ⟨w, hw, hle'⟩ := h.covers u hu
            rw [hkey] at hw
            exact hle'.trans (hle w hw)
      · next hkey =>
          rcases hu with rfl | hu
          · exact absurd rfl hkey
          · exact h.covers u hu
    · intro w hw
      rw [mem_values, get?_insert] at hw
      split at hw
      · exact .inl (Option.some.inj hw).symm
      · exact .inr (h.offered w (mem_values.mpr hw))

/-- The map after the values of a list. -/
def offerAll (vs : List V) : Latest key := vs.foldl (offer rev) empty

theorem offerAll_concat (vs : List V) (v : V) :
    (offerAll rev (vs ++ [v]) : Latest key) = (offerAll rev vs).offer rev v := by
  simp [offerAll]

theorem newest_offerAll (vs : List V) :
    Newest rev {v | v ∈ vs} (offerAll rev vs : Latest key) := by
  induction vs using List.reverseRecOn with
  | nil => simpa [offerAll] using newest_empty rev
  | append_singleton vs v ih =>
      have hset : {u | u ∈ vs ++ [v]} = Insert.insert v {u | u ∈ vs} := by
        ext u
        simp [or_comm]
      rw [offerAll_concat, hset]
      exact ih.offer rev v

/-- A value that nothing offered under its key is ahead of is taken when it comes
last. -/
theorem offerAll_concat_of_le {vs : List V} {v : V}
    (h : ∀ u ∈ vs, key u = key v → rev u ≤ rev v) :
    (offerAll rev (vs ++ [v]) : Latest key) = (offerAll rev vs).insert v := by
  have hle : ∀ cur, (offerAll rev vs : Latest key).get? (key v) = some cur →
      rev cur ≤ rev v := by
    intro cur hcur
    have hkey := key_of_get? hcur
    exact h cur ((newest_offerAll rev vs).offered cur (mem_values.mpr (hkey ▸ hcur))) hkey
  rw [offerAll_concat, offer_of_le rev hle]

theorem get?_offerAll_concat {vs : List V} {v : V}
    (h : ∀ u ∈ vs, key u = key v → rev u ≤ rev v) :
    (offerAll rev (vs ++ [v]) : Latest key).get? (key v) = some v := by
  rw [offerAll_concat_of_le rev h, get?_insert, if_pos rfl]

/-- Where the revisions of a key do not go back, the last value of the key is held. -/
theorem get?_offerAll_of_advance {vs : List V}
    (h : vs.Pairwise fun u v => key u = key v → rev u ≤ rev v) (k : K) :
    (offerAll rev vs : Latest key).get? k = vs.reverse.find? fun v => key v = k := by
  induction vs using List.reverseRecOn with
  | nil => rfl
  | append_singleton vs v ih =>
      obtain ⟨hbefore, -, hlast⟩ := List.pairwise_append.mp h
      rw [offerAll_concat_of_le rev fun u hu => hlast u hu v (List.mem_singleton_self v),
        get?_insert, ih hbefore, List.reverse_concat, List.find?_cons]
      by_cases hkey : k = key v
      · simp [hkey]
      · simp [hkey, Ne.symm hkey]

variable {rev} {S : Set V}

/-- Two maps with the newest of the same values agree, if a revision of a key belongs
to one value. -/
theorem Newest.get?_eq {m m' : Latest key} (h : Newest rev S m) (h' : Newest rev S m')
    (hone : ∀ v ∈ S, ∀ w ∈ S, key v = key w → rev v = rev w → v = w) (k : K) :
    m.get? k = m'.get? k := by
  cases hk : m.get? k with
  | some v =>
      obtain rfl := key_of_get? hk
      have hv := h.offered v (mem_values.mpr hk)
      obtain ⟨w, hw, hle⟩ := h'.covers v hv
      have hkey := key_of_get? hw
      have hwS := h'.offered w (mem_values.mpr (by rwa [hkey]))
      obtain ⟨u, hu, hle'⟩ := h.covers w hwS
      rw [hkey, hk, Option.some.injEq] at hu
      subst hu
      rw [hw, hone v hv w hwS hkey.symm (le_antisymm hle hle')]
  | none =>
      cases hk' : m'.get? k with
      | none => rfl
      | some w =>
          obtain rfl := key_of_get? hk'
          obtain ⟨u, hu, -⟩ := h.covers w (h'.offered w (mem_values.mpr hk'))
          rw [hk] at hu
          cases hu

/-- With respect to a finer revision the map is newest where the finer one does not
tell apart the values of a key that are highest. -/
theorem Newest.finer {T : Type*} [LinearOrder T] {fine : V → T} {m : Latest key}
    (h : Newest rev S m) (hfine : ∀ v w, rev v < rev w → fine v < fine w)
    (hhighest : ∀ v ∈ S, ∀ w ∈ S, key v = key w → rev v = rev w →
      (∀ u ∈ S, key u = key v → rev u ≤ rev v) → fine v = fine w) : Newest fine S m := by
  refine ⟨fun v hv => ?_, h.offered⟩
  obtain ⟨w, hw, hle⟩ := h.covers v hv
  refine ⟨w, hw, ?_⟩
  rcases lt_or_eq_of_le hle with hlt | heq
  · exact (hfine v w hlt).le
  · have hkey := key_of_get? hw
    have hwS := h.offered w (mem_values.mpr (by rwa [hkey]))
    refine (hhighest v hv w hwS hkey.symm heq fun u hu hku => ?_).le
    obtain ⟨w', hw', hle'⟩ := h.covers u hu
    rw [hku, hw, Option.some.injEq] at hw'
    rwa [heq, hw']

end Latest

end DdsOrchestrator
