import Mathlib.Algebra.Order.Ring.Rat
import Mathlib.Data.List.Induction

/-!
The safeguards between what the decider wants and what is applied. A profile is replaced only
by one that has won often enough in a row, by a margin, after the current one has stayed long
enough and the last replacement is long enough ago.

The profile that the first confident decision installs has to stay as long as any other. The
fallback does not: the update that installs it counts as one that it has stayed.
-/

namespace DdsOrchestrator.QosNfcm

/-! ### The controller -/

structure StabilityConfig (α : Type*) where
  marginM : α
  persistK : UInt32
  minDwell : UInt32
  cooldown : UInt32
  minConfidence : α
  fallback : ℕ

structure StabilityController (α : Type*) where
  cfg : StabilityConfig α
  current : Option ℕ
  dwell : ℕ
  cooldownLeft : ℕ
  candidate : Option ℕ
  streak : ℕ

/-- What `update` is given. -/
structure Update (α : Type*) where
  winner : ℕ
  confidence : α
  runnerUp : α

/-- `n.saturating_add(1)` on 32 bits. -/
def saturatingSucc (n : ℕ) : ℕ := min (n + 1) (2 ^ 32 - 1)

/-- `n + 1` on 32 bits. -/
def wrappingSucc (n : ℕ) : ℕ := (n + 1) % 2 ^ 32

namespace StabilityController

variable {α : Type*} [Sub α] [LinearOrder α]

def new (cfg : StabilityConfig α) : StabilityController α where
  cfg := cfg
  current := none
  dwell := 0
  cooldownLeft := 0
  candidate := none
  streak := 0

/-- The wins of the winner in a row, with this one. -/
def nextStreak (c : StabilityController α) (u : Update α) : ℕ :=
  if c.candidate = some u.winner then wrappingSucc c.streak else 1

/-- `can_switch`; the cooldown is the one before this update. -/
def CanSwitch (c : StabilityController α) (u : Update α) : Prop :=
  c.cfg.marginM < u.confidence - u.runnerUp ∧ c.cfg.persistK.toNat ≤ c.nextStreak u ∧
    c.cfg.minDwell.toNat ≤ saturatingSucc c.dwell ∧ ¬ 0 < c.cooldownLeft

instance (c : StabilityController α) (u : Update α) : Decidable (c.CanSwitch u) :=
  inferInstanceAs (Decidable (_ ∧ _))

/-- The effective profile and the controller after the update. -/
def update (c : StabilityController α) (u : Update α) : ℕ × StabilityController α :=
  let ticked : StabilityController α :=
    { c with dwell := saturatingSucc c.dwell, cooldownLeft := c.cooldownLeft - 1 }
  if u.confidence < c.cfg.minConfidence then
    let cur := c.current.getD c.cfg.fallback
    (cur, { ticked with current := some cur, candidate := none, streak := 0 })
  else
    match c.current with
    | none => (u.winner, { ticked with current := some u.winner, dwell := 0 })
    | some current =>
        if u.winner = current then (current, { ticked with candidate := none, streak := 0 })
        else if c.CanSwitch u then
          (u.winner, { ticked with
            current := some u.winner
            dwell := 0
            cooldownLeft := c.cfg.cooldown.toNat
            candidate := none
            streak := 0 })
        else
          (current, { ticked with candidate := some u.winner, streak := c.nextStreak u })

/-- What an update can do. -/
inductive Outcome (c : StabilityController α) (u : Update α) :
    ℕ → StabilityController α → Prop where
  | low (hlow : u.confidence < c.cfg.minConfidence) :
      Outcome c u (c.current.getD c.cfg.fallback)
        { c with
          current := some (c.current.getD c.cfg.fallback)
          dwell := saturatingSucc c.dwell
          cooldownLeft := c.cooldownLeft - 1
          candidate := none
          streak := 0 }
  | first (hconfident : c.cfg.minConfidence ≤ u.confidence) (hcurrent : c.current = none) :
      Outcome c u u.winner
        { c with
          current := some u.winner
          dwell := 0
          cooldownLeft := c.cooldownLeft - 1 }
  | same (hconfident : c.cfg.minConfidence ≤ u.confidence)
      (hcurrent : c.current = some u.winner) :
      Outcome c u u.winner
        { c with
          dwell := saturatingSucc c.dwell
          cooldownLeft := c.cooldownLeft - 1
          candidate := none
          streak := 0 }
  | held (hconfident : c.cfg.minConfidence ≤ u.confidence) {p : ℕ}
      (hcurrent : c.current = some p) (hne : u.winner ≠ p) (hcan : ¬ c.CanSwitch u) :
      Outcome c u p
        { c with
          dwell := saturatingSucc c.dwell
          cooldownLeft := c.cooldownLeft - 1
          candidate := some u.winner
          streak := c.nextStreak u }
  | switched (hconfident : c.cfg.minConfidence ≤ u.confidence) {p : ℕ}
      (hcurrent : c.current = some p) (hne : u.winner ≠ p) (hcan : c.CanSwitch u) :
      Outcome c u u.winner
        { c with
          current := some u.winner
          dwell := 0
          cooldownLeft := c.cfg.cooldown.toNat
          candidate := none
          streak := 0 }

theorem update_outcome (c : StabilityController α) (u : Update α) :
    c.Outcome u (c.update u).1 (c.update u).2 := by
  unfold update
  dsimp only
  split
  · next hlow => exact .low hlow
  next hlow =>
  have hconfident := not_lt.mp hlow
  split
  · next hcurrent => exact .first hconfident hcurrent
  next p hcurrent =>
  split
  · next heq =>
    subst heq
    exact .same hconfident hcurrent
  next hne =>
  split
  · next hcan => exact .switched hconfident hcurrent hne hcan
  · next hcan => exact .held hconfident hcurrent hne hcan

theorem update_cfg (c : StabilityController α) (u : Update α) : (c.update u).2.cfg = c.cfg := by
  have h := c.update_outcome u
  generalize (c.update u).1 = effective, (c.update u).2 = c' at h
  cases h <;> rfl

end StabilityController

/-! ### Wins in a row -/

section

variable {α : Type*} [LinearOrder α]

/-- The last `n` updates were confident and won by `w`. -/
def LastWon (cfg : StabilityConfig α) (w n : ℕ) (us : List (Update α)) : Prop :=
  ∃ older recent, us = older ++ recent ∧ recent.length = n ∧
    ∀ v ∈ recent, v.winner = w ∧ cfg.minConfidence ≤ v.confidence

variable {cfg : StabilityConfig α} {us : List (Update α)} {u : Update α} {w n : ℕ}

theorem lastWon_zero : LastWon cfg w 0 us := ⟨us, [], by simp, rfl, by simp⟩

theorem LastWon.concat (h : LastWon cfg w n us) (hwinner : u.winner = w)
    (hconfident : cfg.minConfidence ≤ u.confidence) : LastWon cfg w (n + 1) (us ++ [u]) := by
  obtain ⟨older, recent, rfl, rfl, hrecent⟩ := h
  refine ⟨older, recent ++ [u], by simp, by simp, fun v hv => ?_⟩
  rcases List.mem_append.mp hv with hv | hv
  · exact hrecent v hv
  · rw [List.mem_singleton.mp hv]
    exact ⟨hwinner, hconfident⟩

theorem LastWon.mono {m : ℕ} (h : LastWon cfg w n us) (hle : m ≤ n) : LastWon cfg w m us := by
  obtain ⟨older, recent, rfl, rfl, hrecent⟩ := h
  refine ⟨older ++ recent.take (recent.length - m), recent.drop (recent.length - m), by simp,
    by simp; omega, fun v hv => hrecent v (List.mem_of_mem_drop hv)⟩

theorem LastWon.of_concat (h : LastWon cfg w (n + 1) (us ++ [u])) :
    u.winner = w ∧ cfg.minConfidence ≤ u.confidence ∧ LastWon cfg w n us := by
  obtain ⟨older, recent, heq, hlength, hrecent⟩ := h
  obtain rfl | ⟨recent, v, rfl⟩ := List.eq_nil_or_concat recent
  · cases hlength
  rw [List.concat_eq_append] at heq hlength hrecent
  rw [← List.append_assoc] at heq
  obtain ⟨rfl, hlast⟩ := List.append_inj' heq rfl
  cases hlast
  obtain ⟨hwinner, hconfident⟩ := hrecent u (by simp)
  refine ⟨hwinner, hconfident, older, recent, rfl, by simpa using hlength, fun v hv => ?_⟩
  exact hrecent v (List.mem_append_left _ hv)

theorem LastWon.le_length (h : LastWon cfg w n us) : n ≤ us.length := by
  obtain ⟨older, recent, rfl, rfl, -⟩ := h
  simp

end

/-! ### Runs -/

variable {α : Type*} [Sub α] [LinearOrder α]

/-- The controller after these updates. -/
def after (cfg : StabilityConfig α) (us : List (Update α)) : StabilityController α :=
  us.foldl (fun c u => (c.update u).2) (.new cfg)

theorem after_concat (cfg : StabilityConfig α) (us : List (Update α)) (u : Update α) :
    after cfg (us ++ [u]) = ((after cfg us).update u).2 := by
  rw [after, List.foldl_append]
  rfl

@[simp] theorem after_cfg (cfg : StabilityConfig α) (us : List (Update α)) :
    (after cfg us).cfg = cfg := by
  induction us using List.reverseRecOn with
  | nil => rfl
  | append_singleton us u ih => rw [after_concat, StabilityController.update_cfg, ih]

/-- The update replaces the profile `p` by `w`. -/
def Replaces (cfg : StabilityConfig α) (us : List (Update α)) (u : Update α) (p w : ℕ) : Prop :=
  (after cfg us).current = some p ∧ (after cfg (us ++ [u])).current = some w ∧ w ≠ p

/-- The update `v` has made `p` current, and it has been current since. -/
def CurrentSince (cfg : StabilityConfig α) (older : List (Update α)) (v : Update α)
    (since : List (Update α)) (p : ℕ) : Prop :=
  (after cfg older).current ≠ some p ∧
    ∀ part, part <+: since → (after cfg (older ++ v :: part)).current = some p

/-- What an update keeps to. -/
structure Sound (cfg : StabilityConfig α) (us : List (Update α)) (u : Update α) : Prop where
  returns : (after cfg (us ++ [u])).current = some ((after cfg us).update u).1
  quiet : u.confidence < cfg.minConfidence → ∀ p, (after cfg us).current = some p →
    (after cfg (us ++ [u])).current = some p
  persistent : ∀ p w, Replaces cfg us u p w →
    LastWon cfg w (max 1 cfg.persistK.toNat) (us ++ [u])
  margin : ∀ p w, Replaces cfg us u p w → cfg.marginM < u.confidence - u.runnerUp
  dwell : ∀ p w, Replaces cfg us u p w → ∀ older v since, us = older ++ v :: since →
    CurrentSince cfg older v since p → cfg.minDwell.toNat ≤ since.length + 1
  cooldown : ∀ p w, Replaces cfg us u p w → ∀ older v between, us = older ++ v :: between →
    (∃ p' w', Replaces cfg older v p' w') → cfg.cooldown.toNat ≤ between.length

/-- All updates of the run keep to it. -/
def Stable (cfg : StabilityConfig α) (us : List (Update α)) : Prop :=
  ∀ before u rest, us = before ++ u :: rest → Sound cfg before u

/-- The first of the updates was not confident, and this one, which is number `min_dwell`, asks
for another profile than the fallback, persistently and by the margin. -/
def LeavesEarly (cfg : StabilityConfig α) (us : List (Update α)) (u : Update α) : Prop :=
  ∃ first middle, us = first :: middle ∧ first.confidence < cfg.minConfidence ∧
    middle.length + 2 = cfg.minDwell.toNat ∧ u.winner ≠ cfg.fallback ∧
    cfg.marginM < u.confidence - u.runnerUp ∧
    LastWon cfg u.winner (max 1 cfg.persistK.toNat) (us ++ [u])

/-! ### What the counters know of the past -/

variable {cfg : StabilityConfig α} {us : List (Update α)} {u : Update α} {p w : ℕ}

/-- The outcome of one more update. -/
theorem after_outcome (cfg : StabilityConfig α) (us : List (Update α)) (u : Update α) :
    (after cfg us).Outcome u ((after cfg us).update u).1 (after cfg (us ++ [u])) := by
  rw [after_concat]
  exact (after cfg us).update_outcome u

theorem current_concat (cfg : StabilityConfig α) (us : List (Update α)) (u : Update α) :
    (after cfg (us ++ [u])).current = some ((after cfg us).update u).1 := by
  have h := after_outcome cfg us u
  generalize after cfg (us ++ [u]) = c', ((after cfg us).update u).1 = effective at h ⊢
  cases h with
  | low | first | switched => rfl
  | same _ hcurrent => exact hcurrent
  | held _ hcurrent => exact hcurrent

theorem current_eq_none (h : (after cfg us).current = none) : us = [] := by
  induction us using List.reverseRecOn with
  | nil => rfl
  | append_singleton us u ih =>
      rw [current_concat] at h
      cases h

theorem lastWon_nextStreak
    (h : ((after cfg us).candidate = none ∧ (after cfg us).streak = 0) ∨
      ∃ w, (after cfg us).candidate = some w ∧ LastWon cfg w (after cfg us).streak us)
    (hconfident : cfg.minConfidence ≤ u.confidence) :
    LastWon cfg u.winner (max 1 ((after cfg us).nextStreak u)) (us ++ [u]) := by
  have hone : LastWon cfg u.winner 1 (us ++ [u]) := lastWon_zero.concat rfl hconfident
  rw [StabilityController.nextStreak]
  split_ifs with hcandidate
  · obtain ⟨hnone, -⟩ | ⟨w, hw, hwon⟩ := h
    · rw [hnone] at hcandidate
      cases hcandidate
    · rw [hw] at hcandidate
      cases hcandidate
      refine (hwon.concat rfl hconfident).mono ?_
      rw [wrappingSucc]
      omega
  · exact hone

/-- The streak counts wins of the candidate. -/
theorem after_streak (cfg : StabilityConfig α) (us : List (Update α)) :
    ((after cfg us).candidate = none ∧ (after cfg us).streak = 0) ∨
      ∃ w, (after cfg us).candidate = some w ∧ LastWon cfg w (after cfg us).streak us := by
  induction us using List.reverseRecOn with
  | nil => exact .inl ⟨rfl, rfl⟩
  | append_singleton us u ih =>
      have h := after_outcome cfg us u
      generalize after cfg (us ++ [u]) = c', ((after cfg us).update u).1 = effective at h ⊢
      cases h with
      | low | same | switched => exact .inl ⟨rfl, rfl⟩
      | first _ hcurrent =>
          obtain rfl := current_eq_none hcurrent
          exact .inl ⟨rfl, rfl⟩
      | held hconfident =>
          rw [after_cfg] at hconfident
          exact .inr ⟨u.winner, rfl, (lastWon_nextStreak ih hconfident).mono (le_max_right _ _)⟩

/-- A replacement is a switch. -/
theorem Replaces.switch (h : Replaces cfg us u p w) :
    w = u.winner ∧ cfg.minConfidence ≤ u.confidence ∧ (after cfg us).CanSwitch u ∧
      (after cfg (us ++ [u])).dwell = 0 ∧
      (after cfg (us ++ [u])).cooldownLeft = cfg.cooldown.toNat := by
  obtain ⟨hbefore, hafter, hne⟩ := h
  have h := after_outcome cfg us u
  generalize after cfg (us ++ [u]) = c', ((after cfg us).update u).1 = effective at h hafter ⊢
  cases h with
  | low =>
      rw [hbefore] at hafter
      cases hafter
      exact absurd rfl hne
  | first _ hcurrent =>
      rw [hbefore] at hcurrent
      cases hcurrent
  | same _ hcurrent | held _ hcurrent =>
      cases hbefore.symm.trans hafter
      exact absurd rfl hne
  | switched hconfident _ _ hcan =>
      cases hafter
      rw [after_cfg] at hconfident
      exact ⟨rfl, hconfident, hcan, rfl, by rw [after_cfg]⟩

theorem dwell_concat_le : (after cfg (us ++ [u])).dwell ≤ (after cfg us).dwell + 1 := by
  have h := after_outcome cfg us u
  generalize after cfg (us ++ [u]) = c', ((after cfg us).update u).1 = effective at h ⊢
  cases h with
  | low | same | held => exact min_le_left _ _
  | first | switched => exact Nat.zero_le _

/-- The dwell is at most the number of updates since, and one more for the fallback. -/
theorem dwell_le {older : List (Update α)} {v : Update α} {since : List (Update α)}
    (h : CurrentSince cfg older v since p) :
    (after cfg (older ++ v :: since)).dwell ≤ since.length ∨
      (older = [] ∧ v.confidence < cfg.minConfidence ∧
        (after cfg (older ++ v :: since)).dwell ≤ since.length + 1) := by
  induction since using List.reverseRecOn with
  | nil =>
      obtain ⟨hbefore, hafter⟩ := h
      have hafter := hafter [] List.nil_prefix
      have h := after_outcome cfg older v
      generalize after cfg (older ++ [v]) = c', ((after cfg older).update v).1 = effective
        at h hafter ⊢
      cases h with
      | low hlow =>
          rw [after_cfg] at hlow
          cases hcurrent : (after cfg older).current with
          | none =>
              obtain rfl := current_eq_none hcurrent
              exact .inr ⟨rfl, hlow, min_le_left _ _⟩
          | some q =>
              rw [hcurrent] at hbefore hafter
              exact absurd hafter hbefore
      | first | switched => exact .inl le_rfl
      | same | held => exact absurd hafter hbefore
  | append_singleton since u ih =>
      have hshorter : CurrentSince cfg older v since p :=
        ⟨h.1, fun part hpart => h.2 part (hpart.trans (List.prefix_append _ _))⟩
      have hstep : (after cfg (older ++ v :: since ++ [u])).dwell ≤
        (after cfg (older ++ v :: since)).dwell + 1 := dwell_concat_le
      rw [List.append_assoc, List.cons_append] at hstep
      rw [List.length_append, List.length_singleton]
      obtain hle | ⟨hfirst, hlow, hle⟩ := ih hshorter
      · exact .inl (by omega)
      · exact .inr ⟨hfirst, hlow, by omega⟩

theorem cooldownLeft_concat (cfg : StabilityConfig α) (us : List (Update α)) (u : Update α) :
    (after cfg us).cooldownLeft ≤ (after cfg (us ++ [u])).cooldownLeft + 1 ∨
      (after cfg (us ++ [u])).cooldownLeft = cfg.cooldown.toNat := by
  have h := after_outcome cfg us u
  generalize after cfg (us ++ [u]) = c', ((after cfg us).update u).1 = effective at h ⊢
  cases h with
  | low | first | same | held => exact .inl (Nat.le_add_of_sub_le le_rfl)
  | switched => exact .inr (by rw [after_cfg])

/-- What is left of the cooldown is what the updates since a replacement have not used up. -/
theorem cooldown_le {older : List (Update α)} {v : Update α} (h : Replaces cfg older v p w)
    (between : List (Update α)) :
    cfg.cooldown.toNat ≤ (after cfg (older ++ v :: between)).cooldownLeft + between.length := by
  induction between using List.reverseRecOn with
  | nil =>
      obtain ⟨-, -, -, -, hcooldown⟩ := h.switch
      exact hcooldown.ge
  | append_singleton between u ih =>
      have hstep := cooldownLeft_concat cfg (older ++ v :: between) u
      rw [List.append_assoc, List.cons_append] at hstep
      rw [List.length_append, List.length_singleton]
      omega

/-! ### The fallback -/

/-- The fallback is current and has not been long enough for a switch. -/
structure AtFallback (cfg : StabilityConfig α) (us : List (Update α)) : Prop where
  current : (after cfg us).current = some cfg.fallback
  dwell : (after cfg us).dwell = us.length
  cooldownLeft : (after cfg us).cooldownLeft = 0
  streak : ∀ w n, w ≠ cfg.fallback → LastWon cfg w (n + 1) us →
    (after cfg us).candidate = some w ∧ n + 1 ≤ (after cfg us).streak

theorem atFallback_first (hlow : u.confidence < cfg.minConfidence) : AtFallback cfg [u] := by
  have hafter : after cfg [u] = ((StabilityController.new cfg).update u).2 := rfl
  have hlow' : u.confidence < (StabilityController.new cfg).cfg.minConfidence := hlow
  rw [StabilityController.update, if_pos hlow'] at hafter
  refine ⟨by rw [hafter]; rfl, by rw [hafter]; rfl, by rw [hafter]; rfl, fun w n _ hwon => ?_⟩
  have hwon : LastWon cfg w (n + 1) ([] ++ [u]) := hwon
  obtain ⟨-, hconfident, -⟩ := hwon.of_concat
  exact absurd hlow (not_lt.mpr hconfident)

theorem lt_nextStreak {n : ℕ} (hlength : us.length + 1 < 2 ^ 32)
    (h : LastWon cfg u.winner n us → n ≠ 0 → (after cfg us).candidate = some u.winner ∧
      n ≤ (after cfg us).streak) (hwon : LastWon cfg u.winner n us) :
    n < (after cfg us).nextStreak u := by
  rw [StabilityController.nextStreak]
  split_ifs with hcandidate
  · have hstreak : (after cfg us).streak ≤ us.length := by
      obtain ⟨-, hzero⟩ | ⟨w, -, hwon⟩ := after_streak cfg us
      · omega
      · exact hwon.le_length
    rw [wrappingSucc, Nat.mod_eq_of_lt (by omega)]
    by_cases hn : n = 0
    · omega
    · have hle := (h hwon hn).2
      omega
  · by_cases hn : n = 0
    · omega
    · exact absurd (h hwon hn).1 hcandidate

/-- An update that comes too early for a switch. -/
theorem AtFallback.concat (h : AtFallback cfg us) (hlength : us.length + 1 < cfg.minDwell.toNat) :
    AtFallback cfg (us ++ [u]) := by
  have hbound := cfg.minDwell.toNat_lt
  have hdwell : saturatingSucc (after cfg us).dwell = (us ++ [u]).length := by
    rw [saturatingSucc, h.dwell, List.length_append, List.length_singleton]
    omega
  have hcooldown : (after cfg us).cooldownLeft - 1 = 0 := by rw [h.cooldownLeft]
  have hout := after_outcome cfg us u
  have hstreak : ∀ w n, w ≠ cfg.fallback → LastWon cfg w (n + 1) (us ++ [u]) →
      u.winner = w ∧ cfg.minConfidence ≤ u.confidence ∧ n + 1 ≤ (after cfg us).nextStreak u := by
    intro w n hne hwon
    obtain ⟨rfl, hconfident, hwon⟩ := hwon.of_concat
    refine ⟨rfl, hconfident, lt_nextStreak (by omega) (fun hwon hn => ?_) hwon⟩
    obtain ⟨m, rfl⟩ := Nat.exists_eq_succ_of_ne_zero hn
    exact h.streak _ m hne hwon
  rcases h with ⟨hcurrent, -, -, -⟩
  suffices hall : (after cfg (us ++ [u])).current = some cfg.fallback ∧
      (after cfg (us ++ [u])).dwell = (us ++ [u]).length ∧
      (after cfg (us ++ [u])).cooldownLeft = 0 ∧
      ∀ w n, w ≠ cfg.fallback → LastWon cfg w (n + 1) (us ++ [u]) →
        (after cfg (us ++ [u])).candidate = some w ∧ n + 1 ≤ (after cfg (us ++ [u])).streak from
    ⟨hall.1, hall.2.1, hall.2.2.1, hall.2.2.2⟩
  generalize after cfg (us ++ [u]) = c', ((after cfg us).update u).1 = effective at hout ⊢
  cases hout with
  | low hlow =>
      refine ⟨by rw [hcurrent]; rfl, hdwell, hcooldown, fun w n hne hwon => ?_⟩
      rw [after_cfg] at hlow
      exact absurd hlow (not_lt.mpr (hstreak w n hne hwon).2.1)
  | first _ hnone =>
      rw [hnone] at hcurrent
      cases hcurrent
  | same _ hsame =>
      refine ⟨hcurrent, hdwell, hcooldown, fun w n hne hwon => ?_⟩
      rw [hcurrent, Option.some_inj] at hsame
      exact absurd ((hstreak w n hne hwon).1.symm.trans hsame.symm) hne
  | held =>
      refine ⟨hcurrent, hdwell, hcooldown, fun w n hne hwon => ?_⟩
      obtain ⟨rfl, -, hle⟩ := hstreak w n hne hwon
      exact ⟨rfl, hle⟩
  | switched _ _ _ hcan =>
      have hdwelt := hcan.2.2.1
      rw [after_cfg, hdwell, List.length_append, List.length_singleton] at hdwelt
      omega

/-- The fallback stays until update number `min_dwell`. -/
theorem atFallback_of_low {first : Update α} {middle : List (Update α)}
    (hlow : first.confidence < cfg.minConfidence)
    (hlength : middle.length + 1 < cfg.minDwell.toNat) :
    AtFallback cfg (first :: middle) := by
  induction middle using List.reverseRecOn with
  | nil => exact atFallback_first hlow
  | append_singleton middle u ih =>
      rw [List.length_append, List.length_singleton] at hlength
      rw [← List.cons_append]
      exact (ih (by omega)).concat (by rwa [List.length_cons])

/-! ### Soundness -/

theorem current_of_canSwitch (hconfident : cfg.minConfidence ≤ u.confidence)
    (hcan : (after cfg us).CanSwitch u) :
    (after cfg (us ++ [u])).current = some u.winner := by
  have hout := after_outcome cfg us u
  generalize after cfg (us ++ [u]) = c', ((after cfg us).update u).1 = effective at hout ⊢
  cases hout with
  | low hlow =>
      rw [after_cfg] at hlow
      exact absurd hlow (not_lt.mpr hconfident)
  | first | switched => rfl
  | same _ hsame => exact hsame
  | held _ _ _ hcan' => exact absurd hcan hcan'

/-- The switch that comes too early. -/
theorem LeavesEarly.not_sound (h : LeavesEarly cfg us u) : ¬ Sound cfg us u := by
  obtain ⟨first, middle, rfl, hlow, hdwell, hne, hmargin, hwon⟩ := h
  intro hsound
  have hbound := cfg.minDwell.toNat_lt
  have hat : AtFallback cfg (first :: middle) := atFallback_of_low hlow (by omega)
  obtain ⟨n, hn⟩ : ∃ n, max 1 cfg.persistK.toNat = n + 1 := ⟨max 1 cfg.persistK.toNat - 1, by omega⟩
  rw [hn] at hwon
  obtain ⟨-, hconfident, hwon⟩ := hwon.of_concat
  have hstreak : n < (after cfg (first :: middle)).nextStreak u := by
    refine lt_nextStreak (by rw [List.length_cons]; omega) (fun hwon hn => ?_) hwon
    obtain ⟨m, rfl⟩ := Nat.exists_eq_succ_of_ne_zero hn
    exact hat.streak _ m hne hwon
  have hcan : (after cfg (first :: middle)).CanSwitch u := by
    rw [StabilityController.CanSwitch, after_cfg, hat.dwell, hat.cooldownLeft, saturatingSucc,
      List.length_cons]
    exact ⟨hmargin, by omega, by omega, lt_irrefl 0⟩
  have hreplaces : Replaces cfg (first :: middle) u cfg.fallback u.winner :=
    ⟨hat.current, current_of_canSwitch hconfident hcan, hne⟩
  have hle := hsound.dwell _ _ hreplaces [] first middle rfl ⟨nofun, fun part hpart => ?_⟩
  · omega
  · have hshort := hpart.length_le
    exact (atFallback_of_low hlow (by omega)).current

/-- The update is sound exactly if it does not leave the fallback early. -/
theorem sound_iff_not_leavesEarly : Sound cfg us u ↔ ¬ LeavesEarly cfg us u := by
  constructor
  · exact fun hsound hearly => hearly.not_sound hsound
  · intro hnot
    refine ⟨current_concat cfg us u, fun hlow p hcurrent => ?_, fun p w hreplaces => ?_,
      fun p w hreplaces => ?_, fun p w hreplaces older v since heq hsince => ?_,
      fun p w hreplaces older v between heq hearlier => ?_⟩
    · rw [current_concat, StabilityController.update, after_cfg, if_pos hlow, hcurrent]
      rfl
    · obtain ⟨rfl, hconfident, hcan, -⟩ := hreplaces.switch
      have hpersist := hcan.2.1
      rw [after_cfg] at hpersist
      exact (lastWon_nextStreak (after_streak cfg us) hconfident).mono
        (max_le_max le_rfl hpersist)
    · obtain ⟨-, -, hcan, -⟩ := hreplaces.switch
      have hmargin := hcan.1
      rwa [after_cfg] at hmargin
    · obtain ⟨rfl, hconfident, hcan, -⟩ := hreplaces.switch
      have hdwell := hcan.2.2.1
      rw [after_cfg, saturatingSucc] at hdwell
      subst heq
      obtain hle | ⟨rfl, hlow, hle⟩ := dwell_le hsince
      · omega
      · -- The fallback has been current since the first update.
        by_contra hlt
        refine hnot ⟨v, since, rfl, hlow, by omega, ?_, ?_, ?_⟩
        · have hfirst := hsince.2 [] List.nil_prefix
          rw [List.nil_append, (atFallback_first hlow).current, Option.some_inj] at hfirst
          rw [hfirst]
          exact hreplaces.2.2
        · have hmargin := hcan.1
          rwa [after_cfg] at hmargin
        · have hpersist := hcan.2.1
          rw [after_cfg] at hpersist
          exact (lastWon_nextStreak (after_streak cfg _) hconfident).mono
            (max_le_max le_rfl hpersist)
    · obtain ⟨-, -, hcan, -⟩ := hreplaces.switch
      obtain ⟨p', w', hearlier⟩ := hearlier
      have hcooldown := cooldown_le hearlier between
      rw [← heq] at hcooldown
      have hleft := hcan.2.2.2
      omega

/-- A run is stable exactly if none of its updates leaves the fallback early. -/
theorem stable_iff (cfg : StabilityConfig α) (us : List (Update α)) :
    Stable cfg us ↔ ∀ before u rest, us = before ++ u :: rest → ¬ LeavesEarly cfg before u := by
  refine forall_congr' fun before => forall_congr' fun u => forall_congr' fun rest => ?_
  exact imp_congr_right fun _ => sound_iff_not_leavesEarly

/-- No update leaves the fallback early if the first one is confident, or if the wins that a
switch asks for take as long as the dwell. -/
theorem not_leavesEarly {first : Update α} {middle : List (Update α)}
    (h : cfg.minConfidence ≤ first.confidence ∨
      cfg.minDwell.toNat ≤ max 1 cfg.persistK.toNat) :
    ¬ LeavesEarly cfg (first :: middle) u := by
  rintro ⟨_, _, ⟨rfl, rfl⟩, hlow, hdwell, -, -, older, recent, heq, hlength, hwon⟩
  obtain hconfident | hle := h
  · exact absurd hlow (not_lt.mpr hconfident)
  · -- The wins go back to the first update, which is not one of them.
    have htotal := congrArg List.length heq
    simp only [List.length_append, List.length_cons, List.length_nil] at htotal
    obtain rfl : older = [] := List.length_eq_zero_iff.mp (by omega)
    rw [List.nil_append] at heq
    have hfirst := hwon first (by rw [← heq]; exact List.mem_cons_self)
    exact absurd hlow (not_lt.mpr hfirst.2)

/-- The parameters that the controller comes with. -/
def StabilityConfig.default : StabilityConfig ℚ where
  marginM := 1 / 10
  persistK := 2
  minDwell := 3
  cooldown := 2
  minConfidence := 3 / 10
  fallback := 4

/-- Noise, then two clear wins. -/
def noiseThenWins : List (Update ℚ) := [⟨0, 1 / 10, 0⟩, ⟨1, 9 / 10, 0⟩, ⟨1, 9 / 10, 0⟩]

/-- The fallback is left at the second update after the one that installs it. -/
theorem fallback_left_early :
    (after .default (noiseThenWins.take 1)).current = some 4 ∧
      (after .default (noiseThenWins.take 2)).current = some 4 ∧
      (after .default noiseThenWins).current = some 1 ∧
      ¬ Stable .default noiseThenWins := by
  refine ⟨by decide +kernel, by decide +kernel, by decide +kernel, fun h => ?_⟩
  have hsound := h [⟨0, 1 / 10, 0⟩, ⟨1, 9 / 10, 0⟩] ⟨1, 9 / 10, 0⟩ [] rfl
  refine LeavesEarly.not_sound ⟨⟨0, 1 / 10, 0⟩, [⟨1, 9 / 10, 0⟩], rfl, by decide +kernel, by decide,
    by decide, by decide +kernel, [⟨0, 1 / 10, 0⟩], [⟨1, 9 / 10, 0⟩, ⟨1, 9 / 10, 0⟩], rfl,
    by decide, fun v hv => ?_⟩ hsound
  simp only [List.mem_cons, List.not_mem_nil, or_false, or_self] at hv
  rw [hv]
  decide +kernel

end DdsOrchestrator.QosNfcm
