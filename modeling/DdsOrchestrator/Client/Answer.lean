import DdsOrchestrator.Client.SubmitStream

/-!
What a client may make of an answer. A success carries chunks that are numbered from zero
without a gap. That they are of one attempt, and that the attempt has no more of them, are
things the numbers do not say.
-/

namespace DdsOrchestrator.Client

open Dataspace (Task TaskOutput DataSpaceError)

/-- The content is what one attempt has emitted, from the first to the final chunk. -/
structure WholeAttempt (taskId : String) (arrivals : List Arrival) (r : TaskResult)
    (chunks : List TaskOutput) : Prop where
  delivered : ∀ c ∈ chunks, c ∈ received taskId arrivals
  content : r.content = String.join (chunks.map (·.content))
  numbered : ∃ k, chunks.map seqNat = List.range (k + 1)
  closed : ∃ c, chunks.getLast? = some c ∧ c.isFinal = true
  oneAgent : ∃ agentId, ∀ c ∈ chunks, c.agentId = agentId

/-- Whatever success is reported, its chunks are those of a whole attempt. -/
def Sound (taskId : String) (arrivals : List Arrival) : Prop :=
  ∀ r, submit taskId (.ok ()) arrivals = .ok r →
    WholeAttempt taskId arrivals r (Submission.run taskId arrivals).chunks

/-- The chunk with the highest number is a final one, and no second agent is among them. -/
structure OneAttempt (chunks : List TaskOutput) : Prop where
  highestFinal : ∀ c ∈ chunks, (∀ d ∈ chunks, d.seqNum ≤ c.seqNum) → c.isFinal = true
  oneAgent : ∀ c ∈ chunks, ∀ d ∈ chunks, c.agentId = d.agentId

/-- When both signals are there, no gap hides that the chunks are of several attempts, or
that one of an attempt is still to come. -/
def OneAttemptAtCut (taskId : String) (arrivals : List Arrival) : Prop :=
  ∀ before a after, arrivals = before ++ a :: after → Completes taskId before a →
    Numbered seqNat (received taskId (before ++ [a])) → OneAttempt (received taskId (before ++ [a]))

variable {taskId : String} {arrivals before after : List Arrival} {a : Arrival} {r : TaskResult}

theorem submit_ok_iff : submit taskId (.ok ()) arrivals = .ok r ↔
    (Submission.run taskId arrivals).answer = some (.ok r) := by
  rw [submit]
  cases (Submission.run taskId arrivals).answer <;> simp

theorem exists_ok_of_numbered (hc : Completes taskId before a)
    (hn : Numbered seqNat (received taskId (before ++ [a]))) (after : List Arrival) :
    ∃ r, submit taskId (.ok ()) (before ++ a :: after) = .ok r := by
  obtain ⟨s, hs, hrun⟩ := Submission.run_of_completes hc after
  simp only [submit_ok_iff]
  rw [hrun, Submission.finish_answer, Submission.conclude, Submission.seqGap_insertionSort,
    seqGap_map_eq_none.mpr (hs.chunks ▸ hn)]
  exact ⟨_, rfl⟩

/-- The last of the chunks in order is the one with the highest number. -/
theorem closed_iff {chunks : List TaskOutput} (hmap : chunks.map seqNat = List.range chunks.length)
    (hne : chunks ≠ []) :
    (∃ c, chunks.getLast? = some c ∧ c.isFinal = true) ↔
      ∀ c ∈ chunks, (∀ d ∈ chunks, d.seqNum ≤ c.seqNum) → c.isFinal = true := by
  have hnumbered : Numbered seqNat chunks := by
    show (chunks.map seqNat).Perm _
    rw [hmap]
  have hlast : ∀ c ∈ chunks, chunks.getLast? = some c ↔ ∀ d ∈ chunks, d.seqNum ≤ c.seqNum := by
    intro c hc
    -- The numbers are 0, 1, …, so the last chunk is the one with the highest number.
    obtain ⟨l, hl⟩ := List.getLast?_isSome.mpr hne |> Option.isSome_iff_exists.mp
    have hlmem := List.mem_of_getLast? hl
    have hlkey := (getLast?_of_map_eq_range hmap hlmem).mp hl
    rw [getLast?_of_map_eq_range hmap hc]
    constructor
    · intro hkey d hd
      have hlt := hnumbered.key_lt hd
      rw [UInt32.le_iff_toNat_le]
      change seqNat d ≤ seqNat c
      omega
    · intro hhigh
      have hle : seqNat l ≤ seqNat c := UInt32.le_iff_toNat_le.mp (hhigh l hlmem)
      have hlt := hnumbered.key_lt hc
      omega
  constructor
  · rintro ⟨c, hc, hfinal⟩ d hd hhigh
    rw [(hlast d hd).mpr hhigh, Option.some_inj] at hc
    exact hc ▸ hfinal
  · intro h
    obtain ⟨c, hc⟩ := List.getLast?_isSome.mpr hne |> Option.isSome_iff_exists.mp
    have hmem := List.mem_of_getLast? hc
    exact ⟨c, hc, h c hmem ((hlast c hmem).mp hc)⟩

theorem wholeAttempt_iff (hc : Completes taskId before a)
    (hn : Numbered seqNat (received taskId (before ++ [a])))
    (h : submit taskId (.ok ()) (before ++ a :: after) = .ok r) :
    WholeAttempt taskId (before ++ a :: after) r
        (Submission.run taskId (before ++ a :: after)).chunks ↔
      OneAttempt (received taskId (before ++ [a])) := by
  obtain ⟨s, hs, hrun⟩ := Submission.run_of_completes hc after
  obtain ⟨_, _, _, _, _, _, _, _, _, hcontent⟩ := Submission.ok_cases (submit_ok_iff.mp h)
  rw [hrun] at hcontent ⊢
  have hchunks : (s.finish taskId a.elapsedMs).chunks =
      (received taskId (before ++ [a])).insertionSort (·.seqNum ≤ ·.seqNum) := by
    rw [← hs.chunks]
    rfl
  rw [hchunks] at hcontent ⊢
  have hperm := (received taskId (before ++ [a])).perm_insertionSort (·.seqNum ≤ ·.seqNum)
  have hmap := (numbered_iff_of_sorted (Submission.sorted_chunks _)).mp (hn.perm hperm.symm)
  obtain ⟨-, o, ho, -⟩ := hc.ready
  have hne := List.ne_nil_of_mem (hperm.mem_iff.mpr ho)
  constructor
  · intro hwhole
    obtain ⟨agentId, hagent⟩ := hwhole.oneAgent
    simp only [hperm.mem_iff] at hagent
    constructor
    · simpa only [hperm.mem_iff] using (closed_iff hmap hne).mp hwhole.closed
    · intro c hc d hd
      rw [hagent c hc, hagent d hd]
  · intro hone
    constructor
    · intro c hc
      rw [hperm.mem_iff] at hc
      have hsplit : before ++ a :: after = before ++ [a] ++ after := by simp
      rw [hsplit, received, List.filterMap_append]
      exact List.mem_append_left _ hc
    · exact hcontent
    · refine ⟨(received taskId (before ++ [a])).length - 1, ?_⟩
      have hpos := List.length_pos_of_mem ho
      rw [hmap, hperm.length_eq]
      congr 1
      omega
    · rw [closed_iff hmap hne]
      simpa only [hperm.mem_iff] using hone.highestFinal
    · refine ⟨o.agentId, ?_⟩
      simp only [hperm.mem_iff]
      exact fun c hc => hone.oneAgent c hc o ho

/-- An answer is sound exactly if, when both signals are there, the numbers show a gap or the
chunks are of one attempt, its final one among them. -/
theorem sound_iff (taskId : String) (arrivals : List Arrival) :
    Sound taskId arrivals ↔ OneAttemptAtCut taskId arrivals := by
  constructor
  · rintro h before a after rfl hc hn
    obtain ⟨r, hr⟩ := exists_ok_of_numbered hc hn after
    exact (wholeAttempt_iff hc hn hr).mp (h r hr)
  · intro h r hr
    obtain ⟨before, a, after, s, rfl, hc, hs, -, hn, -⟩ :=
      Submission.ok_cases (submit_ok_iff.mp hr)
    rw [hs.chunks] at hn
    exact (wholeAttempt_iff hc hn hr).mpr (h before a after rfl hc hn)

/-- Agent a1 has emitted two chunks and died before DONE. Agent a2 emits four. Chunk 0 of the
one and chunk 1 of the other are lost, and chunk 3 is late. -/
def reassigned : List Arrival :=
  [⟨5, .output (.ok (chunk "a1" 1 "b" true))⟩, ⟨20, .output (.ok (chunk "a2" 0 "w" false))⟩,
    ⟨22, .output (.ok (chunk "a2" 2 "y" false))⟩, ⟨23, .status (.ok doneSample)⟩,
    ⟨24, .output (.ok (chunk "a2" 3 "z" true))⟩]

/-- Success with chunks of both attempts and without the end of the second one. -/
theorem success_of_two_attempts : ¬ Sound "t1" reassigned := by
  intro h
  have hok : submit "t1" (.ok ()) reassigned =
      .ok
        { taskId := "t1", content := "wby", success := true, latencyMs := 23, ttfcMs := 5
          tokensPrompt := 0, tokensCompletion := 1 } := rfl
  obtain ⟨c, hc, hfinal⟩ := (h _ hok).closed
  have hlast : (Submission.run "t1" reassigned).chunks.getLast? =
      some (chunk "a2" 2 "y" false) := rfl
  rw [hlast] at hc
  cases hc
  cases hfinal

end DdsOrchestrator.Client
