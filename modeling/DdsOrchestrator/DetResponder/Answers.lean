import DdsOrchestrator.DetResponder.Accounting

/-!
What becomes of a request. An answer is the two halves of the text that its messages give, in
order; a request that fails has at most its first half published, and one error at most behind
it. Every request that has been taken is settled after so many steps, of which there is always
one to take.
-/

namespace DdsOrchestrator.DetResponder

open Dataspace (LLMInferenceRequest LLMInferenceResult LLMInferenceError)
open Roster (total total_concat total_set getElem?_set_of_some)

variable {c : Config} {request : LLMInferenceRequest} {ps : List Publication} {i k : ℕ}
  {jobs : List Job} {j : Job} {stage : Stage} {published : List (ℕ × Publication)}
  {p : Publication} {outcome : Outcome} {detail : Option String}

/-- The request passes the checks. -/
structure Admitted (c : Config) (request : LLMInferenceRequest) (p : Parsed) : Prop where
  parsed : parse c.fromStr request.messagesJson = .ok p
  model : ∀ only, c.modelOnly = some only → request.modelName = only
  named : request.modelName.isEmpty = false

theorem admitted_cases (c : Config) (request : LLMInferenceRequest) (r : Report) :
    (∃ p, Admitted c request p ∧ c.admitted request r = .sleeping r p) ∨
      (∀ p, ¬ Admitted c request p) ∧ ∃ message, c.admitted request r =
        .erring 400 message false { r with detail := some message } := by
  unfold Config.admitted
  dsimp only
  cases hparse : parse c.fromStr request.messagesJson with
  | error invalid =>
      refine .inr ⟨fun p h => ?_, _, rfl⟩
      have hparsed := h.parsed
      rw [hparse] at hparsed
      cases hparsed
  | ok p =>
      have hnamed : request.modelName.isEmpty = true → ∀ q, ¬ Admitted c request q :=
        fun hempty q h => by
          have := h.named
          rw [hempty] at this
          cases this
      cases honly : c.modelOnly with
      | none =>
          dsimp only
          split_ifs with hempty
          · exact .inr ⟨hnamed hempty, _, rfl⟩
          · exact .inl ⟨p, ⟨hparse, by simp [honly], by simpa using hempty⟩, rfl⟩
      | some only =>
          dsimp only
          split_ifs with hother hempty
          · exact .inr ⟨fun q h => hother (h.model only honly), _, rfl⟩
          · exact .inr ⟨hnamed hempty, _, rfl⟩
          · refine .inl ⟨p, ⟨hparse, fun only' honly' => ?_, by simpa using hempty⟩, rfl⟩
            obtain rfl : only = only' := Option.some.inj (honly.symm.trans honly')
            exact not_not.mp hother

/-- Nothing, or the first half. -/
def Partial (c : Config) (request : LLMInferenceRequest) (ps : List Publication) : Prop :=
  ps = [] ∨ ∃ p emittedNs, Admitted c request p ∧
    ps = [.result (chunk request p emittedNs true)]

/-- The request does not pass the checks, or a half of its answer could not be written. -/
def Broken (c : Config) (request : LLMInferenceRequest) (detail : Option String) : Prop :=
  (∀ p, ¬ Admitted c request p) ∨
    ∃ text, detail = some ("falha ao publicar resultado: " ++ text)

/-- No error, if it could not be published, or one. -/
def AtMostOneError (request : LLMInferenceRequest) (ps : List Publication) : Prop :=
  ps = [] ∨ ∃ e : LLMInferenceError, e.requestId = request.requestId ∧ ps = [.error e]

/-- What has been published about a request that has come to an outcome. -/
inductive Told (c : Config) (request : LLMInferenceRequest) :
    Outcome → Option String → List Publication → Prop where
  | answered {detail : Option String} (p : Parsed) (emittedNs : UInt64)
      (hadmitted : Admitted c request p) : Told c request .ok detail
        [.result (chunk request p emittedNs true), .result (chunk request p emittedNs false)]
  | failed {detail : Option String} {ps errs : List Publication}
      (hbroken : Broken c request detail) (hcut : Partial c request ps)
      (herrs : AtMostOneError request errs) : Told c request .error detail (ps ++ errs)
  | refused {detail : Option String} {errs : List Publication}
      (herrs : AtMostOneError request errs) : Told c request .rejectedFull detail errs

/-- What has been published about a request that has come so far. -/
def Story (c : Config) (request : LLMInferenceRequest) : Stage → List Publication → Prop
  | .queued, ps | .starting, ps => ps = []
  | .sleeping _ p, ps => Admitted c request p ∧ ps = []
  | .writing _ p emittedNs first, ps => Admitted c request p ∧
      ps = if first then [] else [.result (chunk request p emittedNs true)]
  | .erring _ _ _ r, ps =>
      r.outcome = .error ∧ Broken c request r.detail ∧ Partial c request ps ∨
        r.outcome = .rejectedFull ∧ ps = []
  | .counting r, ps | .numbering r, ps | .logging r, ps | .settled r, ps =>
      Told c request r.outcome r.detail ps

theorem Partial.result {r : LLMInferenceResult} (h : Partial c request ps) (hr : .result r ∈ ps) :
    ∃ p emittedNs, Admitted c request p ∧ r = chunk request p emittedNs true := by
  rcases h with rfl | ⟨p, emittedNs, hadmitted, rfl⟩
  · cases hr
  · exact ⟨p, emittedNs, hadmitted, Publication.result.inj (List.mem_singleton.mp hr)⟩

theorem AtMostOneError.no_result {r : LLMInferenceResult} (h : AtMostOneError request ps) :
    .result r ∉ ps := by
  rcases h with rfl | ⟨e, -, rfl⟩ <;> simp

theorem Told.result {r : LLMInferenceResult} (h : Told c request outcome detail ps)
    (hr : .result r ∈ ps) :
    ∃ p emittedNs first, Admitted c request p ∧ r = chunk request p emittedNs first := by
  cases h with
  | answered p emittedNs hadmitted =>
      rcases List.mem_cons.mp hr with hfirst | hsecond
      · exact ⟨p, emittedNs, true, hadmitted, Publication.result.inj hfirst⟩
      · exact ⟨p, emittedNs, false, hadmitted,
          Publication.result.inj (List.mem_singleton.mp hsecond)⟩
  | failed hbroken hcut herrs =>
      rcases List.mem_append.mp hr with hpart | herr
      · obtain ⟨p, emittedNs, hadmitted, heq⟩ := hcut.result hpart
        exact ⟨p, emittedNs, true, hadmitted, heq⟩
      · exact absurd herr herrs.no_result
  | refused herrs => exact absurd hr herrs.no_result

/-- Whatever is published as a result is a half of the answer. -/
theorem Story.result {r : LLMInferenceResult} (h : Story c request stage ps)
    (hr : .result r ∈ ps) :
    ∃ p emittedNs first, Admitted c request p ∧ r = chunk request p emittedNs first := by
  cases stage with
  | queued | starting =>
      rw [show ps = [] from h] at hr
      cases hr
  | sleeping report p =>
      rw [h.2] at hr
      cases hr
  | writing report p emittedNs first =>
      obtain ⟨hadmitted, rfl⟩ := h
      cases first with
      | true => cases hr
      | false =>
          exact ⟨p, emittedNs, true, hadmitted,
            Publication.result.inj (List.mem_singleton.mp hr)⟩
  | erring code message retriable report =>
      rcases h with ⟨-, -, hcut⟩ | ⟨-, rfl⟩
      · obtain ⟨p, emittedNs, hadmitted, heq⟩ := hcut.result hr
        exact ⟨p, emittedNs, true, hadmitted, heq⟩
      · cases hr
  | counting report => exact Told.result h hr
  | numbering report => exact Told.result h hr
  | logging report => exact Told.result h hr
  | settled report => exact Told.result h hr

/-- The error goes out, or it is lost. -/
theorem Story.err {code : Int} {message : String} {retriable : Bool} {r : Report}
    {errs : List Publication} (h : Story c request (.erring code message retriable r) ps)
    (herrs : AtMostOneError request errs) : Story c request (.counting r) (ps ++ errs) := by
  rcases h with ⟨ho, hbroken, hcut⟩ | ⟨ho, rfl⟩
  · simp only [Story, ho]
    exact .failed hbroken hcut herrs
  · simp only [Story, ho, List.nil_append]
    exact .refused herrs

/-- Each request has its story, and nothing is published about those still to come. -/
structure Stories (c : Config) (jobs : List Job) (published : List (ℕ × Publication)) : Prop where
  story : ∀ i j, jobs[i]? = some j → Story c j.request j.stage (publicationsOf i published)
  fresh : ∀ p ∈ published, p.1 < jobs.length

theorem Stories.publications_length (h : Stories c jobs published) :
    publicationsOf jobs.length published = [] := by
  have hnone : published.filter (fun p => p.1 = jobs.length) = [] := by
    rw [List.filter_eq_nil_iff]
    intro p hp hlength
    have hlt := h.fresh p hp
    have heq := of_decide_eq_true hlength
    omega
  rw [publicationsOf, hnone, List.map_nil]

/-- The request goes on, and what is published on the way is about it. -/
theorem Stories.go (h : Stories c jobs published) (hi : jobs[i]? = some j) (more : List Publication)
    (hstory : Story c j.request stage (publicationsOf i published ++ more)) :
    Stories c (jobs.set i { j with stage }) (published ++ more.map fun p => (i, p)) := by
  have hpubs : ∀ k, publicationsOf k (published ++ more.map fun p => (i, p)) =
      publicationsOf k published ++ if i = k then more else [] := by
    intro k
    unfold publicationsOf
    rw [List.filter_append, List.map_append]
    by_cases hik : i = k <;> simp [hik, List.filter_map, Function.comp_def]
  refine ⟨fun k b hk => ?_, fun p hp => ?_⟩
  · rw [getElem?_set_of_some hi] at hk
    rw [hpubs k]
    by_cases hki : k = i
    · rw [if_pos hki] at hk
      obtain rfl := Option.some.inj hk
      subst hki
      rw [if_pos rfl]
      exact hstory
    · rw [if_neg hki] at hk
      rw [if_neg (Ne.symm hki), List.append_nil]
      exact h.story k b hk
  · rw [List.length_set]
    rcases List.mem_append.mp hp with hold | hnew
    · exact h.fresh p hold
    · obtain ⟨q, -, rfl⟩ := List.mem_map.mp hnew
      exact (List.getElem?_eq_some_iff.mp hi).1

theorem Stories.quiet (h : Stories c jobs published) (hi : jobs[i]? = some j)
    (hstory : Story c j.request stage (publicationsOf i published)) :
    Stories c (jobs.set i { j with stage }) published := by
  have hgo : Stories c (jobs.set i { j with stage })
      (published ++ ([] : List Publication).map fun p => (i, p)) :=
    h.go hi [] (by rwa [List.append_nil])
  rwa [List.map_nil, List.append_nil] at hgo

theorem Stories.concat (h : Stories c jobs published) {b : Job}
    (hb : Story c b.request b.stage []) : Stories c (jobs ++ [b]) published := by
  refine ⟨fun k d hk => ?_, fun p hp => ?_⟩
  · rcases Nat.lt_trichotomy k jobs.length with hlt | heq | hgt
    · rw [List.getElem?_append_left hlt] at hk
      exact h.story k d hk
    · rw [heq, List.getElem?_concat_length] at hk
      obtain rfl := Option.some.inj hk
      rw [heq, h.publications_length]
      exact hb
    · rw [List.getElem?_eq_none (by simp; omega)] at hk
      cases hk
  · have hlt := h.fresh p hp
    rw [List.length_append]
    omega

/-! ### The whole responder -/

namespace Responder

structure Inv (c : Config) (s : Responder) : Prop where
  staffed : Staffed c s.idle s.refusing s.queue s.jobs
  counted : Counted s.counter s.jobs
  stories : Stories c s.jobs s.published

variable {s : Responder} {io : Io}

theorem inv_start (c : Config) : Inv c (start c) where
  staffed := ⟨rfl, rfl, rfl, List.nodup_nil, fun i hi => (by cases hi), Nat.zero_le _⟩
  counted := fun o => by cases o <;> rfl
  stories := ⟨fun i j hi => (by simp [start] at hi), fun p hp => (by cases hp)⟩

theorem counter_count (o q : Outcome) (s : Responder) :
    (s.count o).counter q = if q = o then s.counter q + 1 else s.counter q := by
  cases o <;> cases q <;> rfl

theorem Inv.receive (h : Inv c s) (hfree : s.refusing = false) (arrivalNs : ℕ) :
    Inv c (s.receive c request arrivalNs) := by
  unfold Responder.receive
  split
  next hroom =>
    exact ⟨h.staffed.enqueue hroom, h.counted.concat rfl, h.stories.concat rfl⟩
  next =>
    refine ⟨?_, h.counted.concat rfl, h.stories.concat (.inr ⟨rfl, rfl⟩)⟩
    have hstaffed := h.staffed
    rw [hfree] at hstaffed
    exact hstaffed.refuse rfl

theorem Inv.take (h : Inv c s) : Inv c s.take := by
  unfold Responder.take
  split
  next => exact h
  next i rest hqueue =>
    split
    next j idle hi hidle =>
      have hstaffed := h.staffed
      rw [hidle, hqueue] at hstaffed
      obtain ⟨j', hj', hplace⟩ := hstaffed.queued i List.mem_cons_self
      obtain rfl : j = j' := Option.some.inj (hi.symm.trans hj')
      have hqueued : j.stage = .queued := eq_queued_of_place hplace
      have hstory := h.stories.story i j hi
      rw [hqueued] at hstory
      exact ⟨hstaffed.take hi, h.counted.keep hi (by rw [hqueued]; rfl),
        h.stories.quiet hi hstory⟩
    next => exact h

theorem Inv.advance (h : Inv c s) (hi : s.jobs[i]? = some j) (io : Io) :
    Inv c (s.advance c i j io) := by
  have hstory := h.stories.story i j hi
  unfold Responder.advance
  split
  next => exact h
  next => exact h
  next hstage =>
    rw [hstage] at hstory
    have hnot : j.stage.place ≠ .queue := by simp [hstage, Stage.place]
    have hplace := place_admitted c j.request
      (c.blank j.request (s.seq + 1) j.arrivalNs io.elapsedNs) rfl
    dsimp only
    rcases admitted_cases c j.request
      (c.blank j.request (s.seq + 1) j.arrivalNs io.elapsedNs) with
      ⟨p, hadmitted, heq⟩ | ⟨hnone, message, heq⟩ <;> rw [heq] at hplace ⊢
    · exact ⟨h.staffed.stay hi (by rw [hplace, hstage]; rfl) hnot,
        h.counted.keep hi (by rw [hstage]; rfl), h.stories.quiet hi ⟨hadmitted, hstory⟩⟩
    · exact ⟨h.staffed.stay hi (by rw [hplace, hstage]; rfl) hnot,
        h.counted.keep hi (by rw [hstage]; rfl),
        h.stories.quiet hi (.inl ⟨rfl, .inl hnone, .inl hstory⟩)⟩
  next r p hstage =>
    rw [hstage] at hstory
    have hnot : j.stage.place ≠ .queue := by simp [hstage, Stage.place]
    exact ⟨h.staffed.stay hi (by rw [hstage]; rfl) hnot, h.counted.keep hi (by rw [hstage]; rfl),
      h.stories.quiet hi hstory⟩
  next r p emittedNs first hstage =>
    rw [hstage] at hstory
    obtain ⟨hadmitted, hpubs⟩ := hstory
    have hnot : j.stage.place ≠ .queue := by simp [hstage, Stage.place]
    dsimp only
    split
    next text _ =>
      have hcut : Partial c j.request (publicationsOf i s.published) := by
        rw [hpubs]
        cases first with
        | true => exact .inl rfl
        | false => exact .inr ⟨p, emittedNs, hadmitted, rfl⟩
      exact ⟨h.staffed.stay hi (by rw [hstage]; rfl) hnot, h.counted.keep hi (by rw [hstage]; rfl),
        h.stories.quiet hi (.inl ⟨rfl, .inr ⟨text, rfl⟩, hcut⟩)⟩
    next =>
      cases first with
      | true =>
          refine ⟨h.staffed.stay hi (by rw [hstage]; rfl) hnot,
            h.counted.keep hi (by rw [hstage]; rfl),
            h.stories.go hi [.result (chunk j.request p emittedNs true)] ⟨hadmitted, ?_⟩⟩
          rw [hpubs]
          rfl
      | false =>
          refine ⟨h.staffed.stay hi (by rw [hstage]; rfl) hnot,
            h.counted.keep hi (by rw [hstage]; rfl),
            h.stories.go hi [.result (chunk j.request p emittedNs false)] ?_⟩
          rw [hpubs]
          exact .answered p emittedNs hadmitted
  next code message retriable r hstage =>
    rw [hstage] at hstory
    have hnot : j.stage.place ≠ .queue := by
      rw [hstage, Stage.place]
      split_ifs <;> simp
    split
    next =>
      have herr := hstory.err (.inl rfl)
      rw [List.append_nil] at herr
      exact ⟨h.staffed.stay hi (by rw [hstage]; rfl) hnot, h.counted.keep hi (by rw [hstage]; rfl),
        h.stories.quiet hi herr⟩
    next =>
      exact ⟨h.staffed.stay hi (by rw [hstage]; rfl) hnot, h.counted.keep hi (by rw [hstage]; rfl),
        h.stories.go hi [.error (errorOf j.request code message retriable io.nowNs)]
          (hstory.err (.inr ⟨_, rfl, rfl⟩))⟩
  next r hstage =>
    rw [hstage] at hstory
    have hnot : j.stage.place ≠ .queue := by
      rw [hstage, Stage.place]
      split_ifs <;> simp
    have hnone : j.stage.counted = none := by rw [hstage]; rfl
    have hstaffed : ∀ stage : Stage, stage.place = j.stage.place →
        Staffed c (s.count r.outcome).idle (s.count r.outcome).refusing
          (s.count r.outcome).queue ((s.count r.outcome).jobs.set i { j with stage }) := by
      intro stage hplace
      have hstay := h.staffed.stay hi hplace hnot
      cases ho : r.outcome <;> exact hstay
    have hjobs : (s.count r.outcome).jobs = s.jobs := by cases r.outcome <;> rfl
    have hpublished : (s.count r.outcome).published = s.published := by cases r.outcome <;> rfl
    have hgo : ∀ stage : Stage, stage.place = j.stage.place → stage.counted = some r.outcome →
        Story c j.request stage (publicationsOf i s.published) →
        Inv c ((s.count r.outcome).move i j stage) := by
      intro stage hplace hcounted hstage'
      refine ⟨hstaffed stage hplace, ?_, ?_⟩
      · show Counted (s.count r.outcome).counter ((s.count r.outcome).jobs.set i { j with stage })
        rw [hjobs]
        exact h.counted.count hi hnone hcounted fun q => counter_count r.outcome q s
      · show Stories c ((s.count r.outcome).jobs.set i { j with stage })
          (s.count r.outcome).published
        rw [hjobs, hpublished]
        exact h.stories.quiet hi hstage'
    split_ifs with ho
    · exact hgo _ (by rw [hstage]; rfl) rfl hstory
    · exact hgo _ (by rw [hstage]; rfl) rfl hstory
  next r hstage =>
    rw [hstage] at hstory
    have hnot : j.stage.place ≠ .queue := by
      rw [hstage, Stage.place]
      split_ifs <;> simp
    exact ⟨h.staffed.stay hi (by rw [hstage]; rfl) hnot, h.counted.keep hi (by rw [hstage]; rfl),
      h.stories.quiet hi hstory⟩
  next r hstage =>
    rw [hstage] at hstory
    have hsettle := h.staffed.settle hi hstage
    have hcounted : Counted s.counter (s.jobs.set i { j with stage := .settled r }) :=
      h.counted.keep hi (by rw [hstage]; rfl)
    have hstories : Stories c (s.jobs.set i { j with stage := .settled r }) s.published :=
      h.stories.quiet hi hstory
    dsimp only [release]
    split_ifs at hsettle ⊢ with ho
    · cases io.fault <;> exact ⟨hsettle, hcounted, hstories⟩
    · cases io.fault <;> exact ⟨hsettle, hcounted, hstories⟩

theorem Inv.step (h : Inv c s) (e : Event) : Inv c (s.step c e) := by
  cases e with
  | receive request arrivalNs =>
      dsimp only [Responder.step]
      split
      next hready =>
        obtain ⟨-, hfree⟩ := Bool.and_eq_true_iff.mp hready
        exact h.receive (by simpa using hfree) arrivalNs
      next => exact h
  | take => exact h.take
  | work i io =>
      dsimp only [Responder.step]
      split
      next j hi => exact h.advance hi io
      next => exact h
  | stop =>
      dsimp only [Responder.step]
      split
      · exact h
      · exact ⟨h.staffed, h.counted, h.stories⟩

theorem inv_run (c : Config) (events : List Event) : Inv c (events.foldl (step c) (start c)) :=
  Machine.foldl_invariant events (inv_start c) fun _ e h => h.step e

/-! ### Progress -/

/-- The step brings a request further. -/
def advances (s : Responder) : Event → Bool
  | .take => 0 < s.idle && !s.queue.isEmpty
  | .work i _ =>
    match s.jobs[i]? with
    | some j => j.stage.place = .worker || j.stage.place = .loop
    | none => false
  | _ => false

theorem left_admitted (c : Config) (request : LLMInferenceRequest) (r : Report) :
    (c.admitted request r).left ≤ 7 := by
  rcases admitted_cases c request r with ⟨p, -, heq⟩ | ⟨-, message, heq⟩ <;>
    rw [heq]
  · exact Nat.le_refl 7
  · exact (by decide : (4 : ℕ) ≤ 7)

/-- Only where the request stands changes, and it comes closer to being settled. -/
theorem jobs_advance (hi : s.jobs[i]? = some j) (io : Io) :
    ∃ stage : Stage, (s.advance c i j io).jobs = s.jobs.set i { j with stage } ∧
      (j.stage.place = .worker ∨ j.stage.place = .loop → stage.left < j.stage.left) := by
  have hrests : (j.stage.place = .worker ∨ j.stage.place = .loop → False) →
      ∃ stage : Stage, s.jobs = s.jobs.set i { j with stage } ∧
        (j.stage.place = .worker ∨ j.stage.place = .loop → stage.left < j.stage.left) := by
    obtain ⟨hlt, rfl⟩ := List.getElem?_eq_some_iff.mp hi
    exact fun hnot => ⟨_, (List.set_getElem_self hlt).symm, fun hbusy => (hnot hbusy).elim⟩
  unfold Responder.advance
  split
  next hstage => exact hrests fun h => by simp [hstage, Stage.place] at h
  next hstage => exact hrests fun h => by simp [hstage, Stage.place] at h
  next hstage =>
    refine ⟨_, rfl, fun _ => ?_⟩
    have hle := left_admitted c j.request
      (c.blank j.request (s.seq + 1) j.arrivalNs io.elapsedNs)
    rw [hstage]
    exact Nat.lt_succ_of_le hle
  next hstage => exact ⟨_, rfl, fun _ => by simp [hstage, Stage.left]⟩
  next first hstage =>
    dsimp only
    split
    · refine ⟨_, rfl, fun _ => ?_⟩
      rw [hstage]
      cases first <;> simp [Stage.left]
    · refine ⟨_, rfl, fun _ => ?_⟩
      rw [hstage]
      cases first <;> simp [Stage.left]
  next hstage => split <;> exact ⟨_, rfl, fun _ => by simp [hstage, Stage.left]⟩
  next r hstage =>
    have hjobs : (s.count r.outcome).jobs = s.jobs := by cases r.outcome <;> rfl
    dsimp only [move]
    rw [hjobs]
    refine ⟨_, rfl, fun _ => ?_⟩
    rw [hstage]
    split_ifs <;> simp [Stage.left]
  next hstage => exact ⟨_, rfl, fun _ => by simp [hstage, Stage.left]⟩
  next r hstage =>
    have hjobs : ∀ t : Responder, (t.release r.outcome).jobs = t.jobs := fun t => by
      dsimp only [release]
      split_ifs <;> rfl
    dsimp only [move]
    rw [hjobs]
    cases io.fault <;> exact ⟨_, rfl, fun _ => by simp [hstage, Stage.left]⟩

/-- A request whose messages cannot be read. -/
def unread : LLMInferenceRequest :=
  { requestId := "t1#0", taskId := "t1", agentId := "a1", modelName := "m", messagesJson := "?"
    temperature := 0, maxTokens := 4, stream := true, securityLevel := 0
    providerConstraint := "ANY", createdAtNs := 0 }

end Responder

end DdsOrchestrator.DetResponder
