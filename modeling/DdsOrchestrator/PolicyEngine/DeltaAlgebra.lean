import DdsOrchestrator.Lib.JsonPath
import DdsOrchestrator.PolicyEngine.Rules

/-!
What a delta does to a document, path by path. Both operations are described by what the
result has under one key; the rest follows by going down the paths of the delta: a delta
that has been applied changes nothing when it comes again, and it reaches no path that leaves
it at a key it does not have.
-/

namespace DdsOrchestrator.PolicyEngine

open Json (Fields)

variable {b d v : Json} {k : String}

/-! ### Under one key -/

theorem deepMerge_of_delta (b : Json) (h : d.isObject = false) : deepMerge b d = d := by
  cases d with
  | obj fs => cases h
  | _ => rw [deepMerge]; simp

theorem deepMerge_of_base (d : Json) (h : b.isObject = false) : deepMerge b d = d := by
  cases d with
  | obj fs =>
      cases b with
      | obj bs => cases h
      | _ => rfl
  | _ => exact deepMerge_of_delta b rfl

theorem get?_mergeFields (k : String) : ∀ {d : Fields} (b : Fields), d.Sorted →
    (mergeFields b d).get? k = (d.get? k).elim (b.get? k) fun v =>
      some (deepMerge ((b.get? k).getD .null) v)
  | .nil, b, _ => by rw [mergeFields]; rfl
  | .cons key value d, b, h => by
      have hstep : mergeFields b (.cons key value d) =
          mergeFields (b.insert key (deepMerge ((b.get? key).getD .null) value)) d := by
        rw [mergeFields]
        cases b.get? key with
        | some bv => rfl
        | none => rw [Option.getD_none, deepMerge_of_base value rfl]
      rw [hstep, get?_mergeFields k _ h.2, Fields.get?, Fields.get?_insert]
      split
      · next hkey =>
          subst hkey
          rw [Fields.get?_eq_none h.head_notMem, if_pos rfl]
          rfl
      · next hkey => rw [if_neg (Ne.symm hkey)]

/-- A key of the delta gets what is merged there, and any other key keeps what it has. -/
theorem get?_deepMerge (b : Json) {fs : Fields} (h : fs.Sorted) (k : String) :
    (deepMerge b (.obj fs)).get? k = (fs.get? k).elim (b.get? k) fun v =>
      some (deepMerge ((b.get? k).getD .null) v) := by
  cases hb : b.isObject with
  | true =>
      obtain ⟨bs, rfl⟩ := Json.isObject_iff.mp hb
      exact get?_mergeFields k bs h
  | false =>
      rw [deepMerge_of_base _ hb, Json.get?_eq_none_of_isObject hb, Json.get?_obj]
      cases fs.get? k with
      | none => rfl
      | some v => exact congrArg some (deepMerge_of_base v rfl).symm

theorem sorted_mergeFields : ∀ {d b : Fields}, b.Sorted → (mergeFields b d).Sorted
  | .nil, b, h => by rw [mergeFields]; exact h
  | .cons key value d, b, h => by
      rw [mergeFields]
      cases b.get? key with
      | some bv => exact sorted_mergeFields h.insert
      | none => exact sorted_mergeFields h.insert

theorem sorted_removeFields : ∀ {d b : Fields}, b.Sorted → (removeFields b d).Sorted
  | .nil, b, h => by rw [removeFields]; exact h
  | .cons key value d, b, h => by
      rw [removeFields]
      split
      · cases b.get? key with
        | some bv => exact sorted_removeFields h.insert
        | none => exact sorted_removeFields h
      · exact sorted_removeFields h.erase

theorem removePaths_of_delta (b : Json) (h : d.isObject = false) : removePaths b d = b := by
  cases d with
  | obj fs => cases h
  | _ => rw [removePaths]; simp

theorem removePaths_of_base (d : Json) (h : b.isObject = false) : removePaths b d = b := by
  cases d with
  | obj fs =>
      cases b with
      | obj bs => cases h
      | _ => rfl
  | _ => exact removePaths_of_delta b rfl

theorem get?_removeFields (k : String) : ∀ {d b : Fields}, d.Sorted → b.Sorted →
    (removeFields b d).get? k = (d.get? k).elim (b.get? k) fun v =>
      if v.isObject then (b.get? k).map (removePaths · v) else none
  | .nil, b, _, _ => by rw [removeFields]; rfl
  | .cons key value d, b, h, hb => by
      rw [removeFields, Fields.get?]
      split
      · next hobject =>
          cases hkey : b.get? key with
          | some bv =>
              dsimp only
              rw [get?_removeFields k h.2 hb.insert, Fields.get?_insert]
              split
              · next heq =>
                  subst heq
                  rw [Fields.get?_eq_none h.head_notMem, if_pos rfl, hkey, Option.elim_some,
                    if_pos hobject]
                  rfl
              · next hne => rw [if_neg (Ne.symm hne)]
          | none =>
              dsimp only
              rw [get?_removeFields k h.2 hb]
              split
              · next heq =>
                  subst heq
                  rw [Fields.get?_eq_none h.head_notMem, hkey, Option.elim_some, if_pos hobject]
                  rfl
              · rfl
      · next hleaf =>
          rw [get?_removeFields k h.2 hb.erase, Fields.get?_erase hb]
          split
          · next heq =>
              subst heq
              rw [Fields.get?_eq_none h.head_notMem, if_pos rfl, Option.elim_some, if_neg hleaf]
              rfl
          · next hne => rw [if_neg (Ne.symm hne)]

/-- A key of the delta is followed into an object or taken out, and any other key keeps what
it has. -/
theorem get?_removePaths (hb : b.WellFormed) {fs : Fields} (h : fs.Sorted) (k : String) :
    (removePaths b (.obj fs)).get? k = (fs.get? k).elim (b.get? k) fun v =>
      if v.isObject then (b.get? k).map (removePaths · v) else none := by
  cases hobject : b.isObject with
  | true =>
      obtain ⟨bs, rfl⟩ := Json.isObject_iff.mp hobject
      rw [Json.WellFormed] at hb
      exact get?_removeFields k h hb.1
  | false =>
      rw [removePaths_of_base _ hobject, Json.get?_eq_none_of_isObject hobject]
      cases fs.get? k with
      | none => rfl
      | some v => simp

/-! ### Objects stay in order -/

theorem wellFormed_of_get? (h : b.WellFormed) (hget : b.get? k = some v) : v.WellFormed := by
  obtain ⟨fs, rfl, hfs⟩ := Json.get?_eq_some.mp hget
  rw [Json.WellFormed] at h
  exact h.2.get? hfs

mutual

theorem wellFormed_deepMerge : ∀ {d b : Json}, b.WellFormed → d.WellFormed →
    (deepMerge b d).WellFormed
  | .obj ds, b, hb, hd => by
      cases b with
      | obj bs =>
          rw [Json.WellFormed] at hb hd
          rw [deepMerge, Json.WellFormed]
          exact ⟨sorted_mergeFields hb.1, wellFormed_mergeFields hb.2 hd.2⟩
      | _ => exact hd
  | .null, b, _, hd => by rwa [deepMerge_of_delta b rfl]
  | .bool _, b, _, hd => by rwa [deepMerge_of_delta b rfl]
  | .num _, b, _, hd => by rwa [deepMerge_of_delta b rfl]
  | .str _, b, _, hd => by rwa [deepMerge_of_delta b rfl]
  | .arr _, b, _, hd => by rwa [deepMerge_of_delta b rfl]

theorem wellFormed_mergeFields : ∀ {d b : Fields}, b.WellFormed → d.WellFormed →
    (mergeFields b d).WellFormed
  | .nil, b, hb, _ => by rwa [mergeFields]
  | .cons key value d, b, hb, hd => by
      rw [Fields.WellFormed] at hd
      rw [mergeFields]
      cases hkey : b.get? key with
      | some bv =>
          exact wellFormed_mergeFields
            (hb.insert (wellFormed_deepMerge (hb.get? hkey) hd.1)) hd.2
      | none => exact wellFormed_mergeFields (hb.insert hd.1) hd.2

end

mutual

theorem wellFormed_removePaths : ∀ {d b : Json}, b.WellFormed → (removePaths b d).WellFormed
  | .obj ds, b, hb => by
      cases b with
      | obj bs =>
          rw [Json.WellFormed] at hb
          rw [removePaths, Json.WellFormed]
          exact ⟨sorted_removeFields hb.1, wellFormed_removeFields hb.2⟩
      | _ => exact hb
  | .null, b, hb => by rwa [removePaths_of_delta b rfl]
  | .bool _, b, hb => by rwa [removePaths_of_delta b rfl]
  | .num _, b, hb => by rwa [removePaths_of_delta b rfl]
  | .str _, b, hb => by rwa [removePaths_of_delta b rfl]
  | .arr _, b, hb => by rwa [removePaths_of_delta b rfl]

theorem wellFormed_removeFields : ∀ {d b : Fields}, b.WellFormed →
    (removeFields b d).WellFormed
  | .nil, b, hb => by rwa [removeFields]
  | .cons key value d, b, hb => by
      rw [removeFields]
      split
      · cases hkey : b.get? key with
        | some bv =>
            exact wellFormed_removeFields (hb.insert (wellFormed_removePaths (hb.get? hkey)))
        | none => exact wellFormed_removeFields hb
      · exact wellFormed_removeFields hb.erase

end

/-- Two well-formed values are the same if they are objects with the same under each key. -/
theorem ext_of_get? (hb : b.WellFormed) (hd : d.WellFormed) (hobject : b.isObject = true)
    (hobject' : d.isObject = true) (hget : ∀ k, b.get? k = d.get? k) : b = d := by
  obtain ⟨bs, rfl⟩ := Json.isObject_iff.mp hobject
  obtain ⟨ds, rfl⟩ := Json.isObject_iff.mp hobject'
  rw [Json.WellFormed] at hb hd
  exact congrArg Json.obj (hb.1.ext hd.1 hget)

theorem isObject_deepMerge (b : Json) (fs : Fields) : (deepMerge b (.obj fs)).isObject = true := by
  cases b <;> rfl

theorem isObject_removePaths (b d : Json) : (removePaths b d).isObject = b.isObject := by
  cases d with
  | obj fs => cases b <;> rfl
  | _ => rw [removePaths_of_delta b rfl]

/-! ### The same delta again -/

theorem deepMerge_self (hd : d.WellFormed) : deepMerge d d = d := by
  induction d using Json.inductionOn with
  | hother d h => exact deepMerge_of_delta d h
  | hobj fs ih =>
      have hsorted := hd
      rw [Json.WellFormed] at hsorted
      refine ext_of_get? (wellFormed_deepMerge hd hd) hd (isObject_deepMerge _ fs) rfl fun k => ?_
      rw [get?_deepMerge _ hsorted.1, Json.get?_obj]
      cases hk : fs.get? k with
      | none => rfl
      | some v => exact congrArg some (ih k v hk (hsorted.2.get? hk))

theorem deepMerge_again (hb : b.WellFormed) (hd : d.WellFormed) :
    deepMerge (deepMerge b d) d = deepMerge b d := by
  induction d using Json.inductionOn generalizing b with
  | hother d h => rw [deepMerge_of_delta _ h, deepMerge_of_delta _ h]
  | hobj fs ih =>
      have hsorted := hd
      rw [Json.WellFormed] at hsorted
      have honce := wellFormed_deepMerge hb hd
      refine ext_of_get? (wellFormed_deepMerge honce hd) honce (isObject_deepMerge _ fs)
        (isObject_deepMerge _ fs) fun k => ?_
      rw [get?_deepMerge _ hsorted.1, get?_deepMerge _ hsorted.1]
      cases hk : fs.get? k with
      | none => rfl
      | some v =>
          have hv := hsorted.2.get? hk
          refine congrArg some ?_
          cases hbk : b.get? k with
          | none =>
              show deepMerge (deepMerge .null v) v = deepMerge .null v
              rw [deepMerge_of_base (b := .null) v rfl, deepMerge_self hv]
          | some bv => exact ih k v hk (wellFormed_of_get? hb hbk) hv

theorem removePaths_again (hb : b.WellFormed) (hd : d.WellFormed) :
    removePaths (removePaths b d) d = removePaths b d := by
  induction d using Json.inductionOn generalizing b with
  | hother d h => rw [removePaths_of_delta _ h, removePaths_of_delta _ h]
  | hobj fs ih =>
      have hsorted := hd
      rw [Json.WellFormed] at hsorted
      cases hobject : b.isObject with
      | false => rw [removePaths_of_base _ hobject, removePaths_of_base _ hobject]
      | true =>
          have honce : (removePaths b (.obj fs)).WellFormed := wellFormed_removePaths hb
          refine ext_of_get? (wellFormed_removePaths honce) honce
            (by rw [isObject_removePaths, isObject_removePaths, hobject])
            (by rw [isObject_removePaths, hobject]) fun k => ?_
          rw [get?_removePaths honce hsorted.1, get?_removePaths hb hsorted.1]
          cases hk : fs.get? k with
          | none => rfl
          | some v =>
              rw [Option.elim_some, Option.elim_some]
              split
              · cases hbk : b.get? k with
                | none => rfl
                | some bv =>
                    exact congrArg some (ih k v hk (wellFormed_of_get? hb hbk)
                      (hsorted.2.get? hk))
              · rfl

/-! ### Along the paths -/

/-- The delta has a value there that is no object. -/
def LeafAt (delta : Json) (path : List String) : Prop :=
  ∃ v, delta.atPath path = some v ∧ v.isObject = false

/-- The path leaves the delta at a key that the delta's object does not have. -/
def LeavesAt (delta : Json) (path : List String) : Prop :=
  ∃ shared key rest fs, path = shared ++ key :: rest ∧
    delta.atPath shared = some (.obj fs) ∧ fs.get? key = none

theorem wellFormed_obj {fs : Fields} (h : (Json.obj fs).WellFormed) :
    fs.Sorted ∧ fs.WellFormed := by
  rwa [Json.WellFormed] at h

theorem atPath_cons_eq_some {path : List String} {w : Json}
    (h : d.atPath (k :: path) = some w) :
    ∃ fs v, d = .obj fs ∧ fs.get? k = some v ∧ v.atPath path = some w := by
  obtain ⟨v, hv, hw⟩ := Option.bind_eq_some_iff.mp h
  obtain ⟨fs, rfl, hk⟩ := Json.get?_eq_some.mp hv
  exact ⟨fs, v, rfl, hk, hw⟩

theorem atPath_deepMerge_leaf {path : List String} {leaf : Json} (hd : d.WellFormed)
    (hleaf : d.atPath path = some leaf) (hobject : leaf.isObject = false) :
    (deepMerge b d).atPath path = some leaf := by
  induction path generalizing b d with
  | nil =>
      obtain rfl := Option.some.inj hleaf
      rw [deepMerge_of_delta b hobject]
      rfl
  | cons k path ih =>
      obtain ⟨fs, v, rfl, hk, hrest⟩ := atPath_cons_eq_some hleaf
      have hsorted := wellFormed_obj hd
      rw [Json.atPath, get?_deepMerge b hsorted.1, hk]
      exact ih (hsorted.2.get? hk) hrest

theorem atPath_deepMerge_elsewhere {shared rest : List String} {fs : Fields} (hd : d.WellFormed)
    (hshared : d.atPath shared = some (.obj fs)) (hkey : fs.get? k = none) :
    (deepMerge b d).atPath (shared ++ k :: rest) = b.atPath (shared ++ k :: rest) := by
  induction shared generalizing b d with
  | nil =>
      obtain rfl := Option.some.inj hshared
      have hsorted := wellFormed_obj hd
      rw [List.nil_append, Json.atPath, Json.atPath, get?_deepMerge b hsorted.1, hkey]
      rfl
  | cons key shared ih =>
      obtain ⟨gs, v, rfl, hk, hshared⟩ := atPath_cons_eq_some hshared
      have hsorted := wellFormed_obj hd
      rw [List.cons_append, Json.atPath, Json.atPath, get?_deepMerge b hsorted.1, hk]
      show (deepMerge ((b.get? key).getD .null) v).atPath (shared ++ k :: rest) = _
      rw [ih (hsorted.2.get? hk) hshared]
      cases b.get? key with
      | some bv => rfl
      | none =>
          -- there is no path into nothing
          cases shared <;> rfl

/-- What a leaf of the delta names is gone, with everything below. -/
theorem atPath_removePaths_leaf {leaf rest : List String} (hb : b.WellFormed) (hd : d.WellFormed)
    (hobject : d.isObject = true) (hleaf : LeafAt d leaf) :
    (removePaths b d).atPath (leaf ++ rest) = none := by
  obtain ⟨value, hvalue, hvalueObject⟩ := hleaf
  induction leaf generalizing b d with
  | nil =>
      obtain rfl := Option.some.inj hvalue
      rw [hobject] at hvalueObject
      cases hvalueObject
  | cons k leaf ih =>
      obtain ⟨fs, v, rfl, hk, hvalue⟩ := atPath_cons_eq_some hvalue
      have hsorted := wellFormed_obj hd
      rw [List.cons_append, Json.atPath, get?_removePaths hb hsorted.1, hk, Option.elim_some]
      split
      · next hv =>
          cases hbk : b.get? k with
          | none => rfl
          | some bv => exact ih (wellFormed_of_get? hb hbk) (hsorted.2.get? hk) hv hvalue
      · rfl

/-- Off the leaves the document is followed together with the delta. -/
theorem atPath_removePaths {path : List String} (hb : b.WellFormed) (hd : d.WellFormed)
    (hoff : ∀ leaf, LeafAt d leaf → ¬ leaf <+: path) :
    (removePaths b d).atPath path = (b.atPath path).map fun v =>
      (d.atPath path).elim v fun w => removePaths v w := by
  induction path generalizing b d with
  | nil => rfl
  | cons k path ih =>
      cases hobject : d.isObject with
      | false => exact absurd List.nil_prefix (hoff [] ⟨d, rfl, hobject⟩)
      | true =>
          obtain ⟨fs, rfl⟩ := Json.isObject_iff.mp hobject
          have hsorted := wellFormed_obj hd
          rw [Json.atPath, Json.atPath, Json.atPath, get?_removePaths hb hsorted.1, Json.get?_obj]
          cases hk : fs.get? k with
          | none => simp
          | some v =>
              have hv : v.isObject = true := by
                by_contra hleaf
                refine hoff [k] ⟨v, ?_, Bool.not_eq_true _ ▸ hleaf⟩ (by simp)
                rw [Json.atPath, Json.get?_obj, hk]
                rfl
              rw [Option.elim_some, if_pos hv]
              cases hbk : b.get? k with
              | none => rfl
              | some bv =>
                  refine ih (wellFormed_of_get? hb hbk) (hsorted.2.get? hk) ?_
                  rintro leaf ⟨w, hw, hwObject⟩ hbegins
                  refine hoff (k :: leaf) ⟨w, ?_, hwObject⟩
                    (List.cons_prefix_cons.mpr ⟨rfl, hbegins⟩)
                  rw [Json.atPath, Json.get?_obj, hk]
                  exact hw

/-- Where no leaf of the delta leads into the document, nothing is removed. -/
theorem removePaths_eq_self (hb : b.WellFormed) (hd : d.WellFormed)
    (hnone : ∀ leaf, LeafAt d leaf → d.isObject = true → b.atPath leaf = none) :
    removePaths b d = b := by
  induction d using Json.inductionOn generalizing b with
  | hother d h => exact removePaths_of_delta b h
  | hobj fs ih =>
      have hsorted := wellFormed_obj hd
      cases hobject : b.isObject with
      | false => exact removePaths_of_base _ hobject
      | true =>
          refine ext_of_get? (wellFormed_removePaths hb) hb
            (by rw [isObject_removePaths, hobject]) hobject fun k => ?_
          rw [get?_removePaths hb hsorted.1]
          cases hk : fs.get? k with
          | none => rfl
          | some v =>
              rw [Option.elim_some]
              have hunder : ∀ leaf, LeafAt v leaf → (b.get? k).bind (·.atPath leaf) = none := by
                rintro leaf ⟨w, hw, hwObject⟩
                refine hnone (k :: leaf) ⟨w, ?_, hwObject⟩ rfl
                rw [Json.atPath, Json.get?_obj, hk]
                exact hw
              cases hbk : b.get? k with
              | none => simp
              | some bv =>
                  rw [hbk] at hunder
                  split
                  · exact congrArg some (ih k v hk (wellFormed_of_get? hb hbk)
                      (hsorted.2.get? hk) fun leaf hleaf _ => hunder leaf hleaf)
                  · next hv =>
                      have hself := hunder [] ⟨v, rfl, Bool.not_eq_true _ ▸ hv⟩
                      cases hself

/-! ### Deltas and documents -/

/-- The leaves of the delta are found, and where it does not lead nothing has changed. -/
structure Merged (document delta result : Json) : Prop where
  found : ∀ path leaf, delta.atPath path = some leaf → leaf.isObject = false →
    result.atPath path = some leaf
  elsewhere : ∀ path, LeavesAt delta path → result.atPath path = document.atPath path

/-- The paths of the document at and below the leaves of the delta are gone and all others
are there. A value is what it was unless it is an object above one of the leaves that the
document had, and then it is still an object. -/
structure Removed (document delta result : Json) : Prop where
  exists_iff : ∀ path, (result.atPath path).isSome = true ↔
    (document.atPath path).isSome = true ∧ ∀ leaf, LeafAt delta leaf → ¬ leaf <+: path
  unchanged : ∀ path, (∀ leaf, LeafAt delta leaf → ¬ leaf <+: path) →
    (∀ leaf, LeafAt delta leaf → (document.atPath leaf).isSome = true → ¬ path <+: leaf) →
      result.atPath path = document.atPath path
  value : ∀ path v, (∀ leaf, LeafAt delta leaf → ¬ leaf <+: path) →
    document.atPath path = some v → v.isObject = false → result.atPath path = some v
  object : ∀ path v, (∀ leaf, LeafAt delta leaf → ¬ leaf <+: path) →
    document.atPath path = some v → v.isObject = true →
      ∃ w, result.atPath path = some w ∧ w.isObject = true

theorem merged_deepMerge (hd : d.WellFormed) : Merged b d (deepMerge b d) := by
  refine ⟨fun path leaf h hobject => atPath_deepMerge_leaf hd h hobject, ?_⟩
  rintro path ⟨shared, key, rest, fs, rfl, hshared, hkey⟩
  exact atPath_deepMerge_elsewhere hd hshared hkey

theorem wellFormed_atPath {path : List String} (hb : b.WellFormed)
    (h : b.atPath path = some v) : v.WellFormed := by
  induction path generalizing b with
  | nil => exact Option.some.inj h ▸ hb
  | cons k path ih =>
      obtain ⟨fs, w, rfl, hk, hrest⟩ := atPath_cons_eq_some h
      exact ih ((wellFormed_obj hb).2.get? hk) hrest

theorem removed_removePaths (hb : b.WellFormed) (hd : d.WellFormed) (hobject : d.isObject = true) :
    Removed b d (removePaths b d) where
  exists_iff path := by
    by_cases hoff : ∀ leaf, LeafAt d leaf → ¬ leaf <+: path
    · rw [atPath_removePaths hb hd hoff, Option.isSome_map]
      exact (and_iff_left hoff).symm
    · refine iff_of_false (fun h => ?_) fun h => hoff h.2
      push Not at hoff
      obtain ⟨leaf, hleaf, rest, rfl⟩ := hoff
      rw [atPath_removePaths_leaf hb hd hobject hleaf] at h
      cases h
  unchanged path hoff habove := by
    rw [atPath_removePaths hb hd hoff]
    cases hv : b.atPath path with
    | none => rfl
    | some v =>
        refine congrArg some ?_
        cases hw : d.atPath path with
        | none => rfl
        | some w =>
            refine removePaths_eq_self (wellFormed_atPath hb hv) (wellFormed_atPath hd hw) ?_
            rintro leaf ⟨u, hu, huObject⟩ -
            have hleaf : LeafAt d (path ++ leaf) :=
              ⟨u, by rw [Json.atPath_append, hw]; exact hu, huObject⟩
            have hmissing := habove _ hleaf
            rw [Json.atPath_append, hv, Option.bind_some] at hmissing
            rw [Option.eq_none_iff_forall_ne_some]
            intro found hfound
            exact hmissing (by rw [hfound]; rfl) (List.prefix_append _ _)
  value path v hoff hv hvObject := by
    rw [atPath_removePaths hb hd hoff, hv, Option.map_some]
    cases d.atPath path with
    | none => rfl
    | some w => exact congrArg some (removePaths_of_base w hvObject)
  object path v hoff hv hvObject := by
    rw [atPath_removePaths hb hd hoff, hv, Option.map_some]
    cases d.atPath path with
    | none => exact ⟨v, rfl, hvObject⟩
    | some w => exact ⟨_, rfl, (isObject_removePaths v w).trans hvObject⟩

/-- A delta that has been applied changes nothing when it is applied again, it does what it
says along its own paths, and it leaves the other ones alone. -/
theorem applyDelta_algebra (doc doc' : PolicyDocument) (operation : String) (delta : Json)
    (hdoc : doc.raw.WellFormed) (hdelta : delta.WellFormed)
    (h : doc.applyDelta operation delta = .ok doc') :
    doc'.raw.WellFormed ∧ doc'.applyDelta operation delta = .ok doc' ∧
      (operation = "ADD_RULE" ∨ operation = "UPDATE_RULE" → Merged doc.raw delta doc'.raw) ∧
      (operation = "REMOVE_RULE" → Removed doc.raw delta doc'.raw) := by
  unfold PolicyDocument.applyDelta at h ⊢
  split at h
  · cases h
  next hobject =>
    have hobject : delta.isObject = true := not_not.mp hobject
    rw [if_neg (not_not.mpr hobject)]
    split at h
    · next hmerge =>
        cases h
        rw [if_pos hmerge]
        refine ⟨wellFormed_deepMerge hdoc hdelta, ?_, fun _ => merged_deepMerge hdelta, ?_⟩
        · rw [deepMerge_again hdoc hdelta]
        · rintro rfl
          exact absurd hmerge (by decide)
    · next hmerge =>
        rw [if_neg hmerge]
        split at h
        · next hremove =>
            cases h
            rw [if_pos hremove]
            refine ⟨wellFormed_removePaths hdoc, ?_, fun h => absurd h hmerge,
              fun _ => removed_removePaths hdoc hdelta hobject⟩
            rw [removePaths_again hdoc hdelta]
        · cases h

/-! ### The tools of high risk -/

/-- A document with a version and the rule of the tools. -/
def riskDocument (tools : Json) : Json :=
  .obj (.cons "rules" (.obj (.cons "tool_call" (.obj (.cons "high_risk_tools" tools .nil)) .nil))
    (.cons "version" (.ofInt 1) .nil))

/-- A delta on the rule alone. -/
def riskDelta (tools : Json) : Json :=
  .obj (.cons "rules" (.obj (.cons "tool_call" (.obj (.cons "high_risk_tools" tools .nil)) .nil))
    .nil)

theorem wellFormed_risk {tools : Json} (h : tools.WellFormed) :
    (riskDocument tools).WellFormed ∧ (riskDelta tools).WellFormed := by
  have hkeys : ∀ k' ∈ ["version"], "rules" < k' := by decide
  have hversion : (Json.ofInt 1).WellFormed := by
    simp [Json.ofInt, Json.WellFormed]
  have hnone : ∀ k, ∀ k' ∈ ([] : List String), k < k' := fun _ => List.forall_mem_nil _
  simp only [riskDocument, riskDelta, Json.WellFormed, Fields.WellFormed, Fields.Sorted,
    Fields.keys, and_true]
  exact ⟨⟨⟨hkeys, hnone _⟩, ⟨hnone _, hnone _, h⟩, hversion⟩, hnone _, hnone _, hnone _, h⟩

/-- The list of tools is replaced, and then it is taken out. -/
theorem applyDelta_algebra_risk :
    Merged (riskDocument .null) (riskDelta (.bool true)) (riskDocument (.bool true)) ∧
      Removed (riskDocument (.bool true)) (riskDelta .null)
        (removePaths (riskDocument (.bool true)) (riskDelta .null)) :=
  ⟨(applyDelta_algebra ⟨riskDocument .null⟩ ⟨riskDocument (.bool true)⟩ "UPDATE_RULE"
      (riskDelta (.bool true)) (wellFormed_risk (by simp [Json.WellFormed])).1
      (wellFormed_risk (by simp [Json.WellFormed])).2 (by decide)).2.2.1 (.inr rfl),
    (applyDelta_algebra ⟨riskDocument (.bool true)⟩
      ⟨removePaths (riskDocument (.bool true)) (riskDelta .null)⟩ "REMOVE_RULE" (riskDelta .null)
      (wellFormed_risk (by simp [Json.WellFormed])).1
      (wellFormed_risk (by simp [Json.WellFormed])).2 (by decide)).2.2.2 rfl⟩

end DdsOrchestrator.PolicyEngine
