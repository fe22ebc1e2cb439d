import Shea.Analysis.MemoryRetrieval

/-!
# What becomes of a proposal

A proposal with a provenance ends in one of two ways: as a new memory, or as a fresh time stamp on the
memory it duplicates. The second keeps the knowledge only if that memory is alive. The broker takes its
candidates from the retriever, which also returns expired ones: a fact that expires and is learnt again
is judged a duplicate of what expired, and nothing is stored.
-/

set_option autoImplicit false

namespace Shea.Analysis

open Shea.Computation Shea.Model
open Shea.Model.HybridMemoryRetriever (candidates rehydrate retrieveIn)
open Shea.Model.MemoryBroker (conflictCandidates conflictPrompt judgeAll outcomeOfResponse
  provenanceOf)

/-! ## What the model says -/

/-- The model's judgement of a proposal against an old memory, as a numbered call. -/
def judgement (host : MemoryHost) (content : String) (old : Memory) (call : ℕ) :
    Except Err ResolutionOutcome := do
  let response ← host.judge (conflictPrompt old.content content) call
  outcomeOfResponse host response

/-- Asked about memories in turn, the model holds the first ones to be distinct and this one to be a
duplicate. -/
inductive JudgedDuplicate (host : MemoryHost) (content : String) : ℕ → List Memory → Memory → Prop
  | here {call : ℕ} {old : Memory} {rest : List Memory}
      (h : judgement host content old call = .ok .duplicate) :
      JudgedDuplicate host content call (old :: rest) old
  | later {call : ℕ} {other old : Memory} {rest : List Memory}
      (h : judgement host content other call = .ok .distinct)
      (hrest : JudgedDuplicate host content (call + 1) rest old) :
      JudgedDuplicate host content call (other :: rest) old

/-- The model judges the proposal to be a duplicate of a memory. -/
def DuplicateOf (host : MemoryHost) (s : MemoryStores) (proposal : MemoryProposal) (old : Memory) :
    Prop :=
  provenanceOf proposal ≠ none ∧
    ∃ similar, retrieveIn host s proposal.content proposal.profileId 3 = .ok similar ∧
      JudgedDuplicate host proposal.content s.modelCalls (conflictCandidates proposal similar) old

section Judging

variable {host : MemoryHost} {content : String} {call : ℕ} {old other : Memory}
  {rest olds : List Memory} {s t : MemoryStores} {outcome : ResolutionOutcome}
  {found : Option Memory}

/-- INTERNAL: the first memory is a duplicate, or is distinct and a later one is. -/
theorem judgedDuplicate_cons_iff :
    JudgedDuplicate host content call (other :: rest) old ↔
      (judgement host content other call = .ok .duplicate ∧ old = other) ∨
        (judgement host content other call = .ok .distinct ∧
          JudgedDuplicate host content (call + 1) rest old) := by
  constructor
  · intro h
    cases h with
    | here h => exact .inl ⟨h, rfl⟩
    | later h hrest => exact .inr ⟨h, hrest⟩
  · rintro (⟨h, rfl⟩ | ⟨h, hrest⟩)
    · exact .here h
    · exact .later h hrest

/-- INTERNAL: the loop over the candidates asks about one of them after the other.
SOURCE: memory/broker.py:127-157 -/
theorem judgeAll_cons :
    (judgeAll host content (old :: rest)).run s =
      match judgement host content old s.modelCalls with
      | .error e => (.error e, { s with modelCalls := s.modelCalls + 1 })
      | .ok outcome =>
        if outcome = .duplicate ∨ outcome = .update then
          (.ok (outcome, some old), { s with modelCalls := s.modelCalls + 1 })
        else (judgeAll host content rest).run { s with modelCalls := s.modelCalls + 1 } := by
  conv_lhs => unfold judgeAll
  unfold judgement
  simp only [Program.run_bind, Program.run_act, Program.run_ofExcept]
  cases host.judge (conflictPrompt old.content content) s.modelCalls with
  | error e => rfl
  | ok response =>
    simp only [bind, Except.bind]
    cases outcomeOfResponse host response with
    | error e => rfl
    | ok outcome =>
      simp only
      split
      · rfl
      · rfl

/-- Asking changes nothing else. -/
theorem judgeAll_state (host : MemoryHost) (content : String) (olds : List Memory)
    (s : MemoryStores) :
    ∃ calls, ((judgeAll host content olds).run s).2 = { s with modelCalls := calls } := by
  induction olds generalizing s with
  | nil => exact ⟨s.modelCalls, rfl⟩
  | cons old rest ih =>
    rw [judgeAll_cons]
    split
    · exact ⟨_, rfl⟩
    · split
      · exact ⟨_, rfl⟩
      · exact ih _

/-- INTERNAL: a verdict of the loop is about the first candidate that is not held to be distinct.
SOURCE: memory/broker.py:127-157 -/
theorem judgeAll_ok (h : (judgeAll host content olds).run s = (.ok (outcome, found), t)) :
    (∃ old ∈ olds, outcome = .duplicate ∧ found = some old ∧
      ∀ m, JudgedDuplicate host content s.modelCalls olds m ↔ m = old) ∨
    (((∃ old ∈ olds, outcome = .update ∧ found = some old) ∨ (outcome = .distinct ∧ found = none)) ∧
      ∀ m, ¬ JudgedDuplicate host content s.modelCalls olds m) := by
  induction olds generalizing s with
  | nil =>
    cases h
    right
    refine ⟨.inr ⟨rfl, rfl⟩, ?_⟩
    intro m hm
    cases hm
  | cons old rest ih =>
    rw [judgeAll_cons] at h
    split at h
    · cases h
    · next verdict hverdict =>
      simp only [judgedDuplicate_cons_iff, hverdict, Except.ok.injEq]
      split at h
      · next hfirst =>
        cases h
        rcases hfirst with rfl | rfl
        · left
          exact ⟨old, List.mem_cons_self .., rfl, rfl, by simp⟩
        · right
          exact ⟨.inl ⟨old, List.mem_cons_self .., rfl, rfl⟩, by simp⟩
      · next hlater =>
        have hdistinct : verdict = .distinct := by
          cases verdict <;> simp_all
        subst hdistinct
        rcases ih h with ⟨old', hin, hout, hfound, hiff⟩ | ⟨hout, hnone⟩
        · left
          exact ⟨old', List.mem_cons_of_mem _ hin, hout, hfound, by simpa using hiff⟩
        · right
          refine ⟨hout.imp_left ?_, by simpa using hnone⟩
          rintro ⟨old', hin, hout⟩
          exact ⟨old', List.mem_cons_of_mem _ hin, hout⟩

end Judging

/-! ## What a proposal leaves -/

section Outcomes

variable {host : MemoryHost} {s t : MemoryStores} {proposal : MemoryProposal}

/-- INTERNAL: a candidate is a stored memory of the profile.
SOURCE: memory/retrieval/ranking.py:22-29 -/
theorem conflictCandidate_stored {similar : List RetrievalResult} {old : Memory}
    (h : retrieveIn host s proposal.content proposal.profileId 3 = .ok similar)
    (hin : old ∈ conflictCandidates proposal similar) :
    MemoryRepository.ofStores s old.id = some old ∧ old.profileId = proposal.profileId := by
  obtain ⟨found, hcandidates, rfl⟩ := retrieveIn_eq_ok h
  obtain ⟨r, hr, rfl⟩ := List.mem_map.mp hin
  apply candidates_stored hcandidates
  apply (List.mem_insertionSort Ranks).mp
  have hsliced := List.mem_of_mem_filter hr
  unfold sliceTo at hsliced
  split at hsliced
  · exact List.mem_of_mem_take hsliced
  · exact List.mem_of_mem_take hsliced

/-- The proposal ends as a time stamp on the memory it duplicates. -/
def Bumped (host : MemoryHost) (s : MemoryStores) (proposal : MemoryProposal) (t : MemoryStores) :
    Prop :=
  ∃ old now, MemoryRepository.ofStores s old.id = some old ∧ old.profileId = proposal.profileId ∧
    (∀ m, DuplicateOf host s proposal m ↔ m = old) ∧
    t.memories = Table.upsert Memory.id MemoryRepository.merge { old with updatedAt := some now }
      s.memories

/-- The proposal ends as a memory under the next id, after an older one was retired or not. -/
def Added (host : MemoryHost) (s : MemoryStores) (proposal : MemoryProposal) (t : MemoryStores) :
    Prop :=
  ∃ before new, (∀ m, ¬ DuplicateOf host s proposal m) ∧ new.id = host.newId s.nextId ∧
    new.profileId = proposal.profileId ∧ new.status = .active ∧ new.content = proposal.content ∧
    (before = s.memories ∨ ∃ retired, MemoryRepository.ofStores s retired.id ≠ none ∧
      before = Table.upsert Memory.id MemoryRepository.merge retired s.memories) ∧
    t.memories = Table.upsert Memory.id MemoryRepository.merge new before

/-- INTERNAL: the conflicts are looked up in the stores as they are, and nothing but the number of
model calls changes. -/
theorem resolveConflicts_ok {outcome : ResolutionOutcome} {found : Option Memory}
    (h : (MemoryBroker.resolveConflicts host proposal).run s = (.ok (outcome, found), t)) :
    ∃ similar calls, retrieveIn host s proposal.content proposal.profileId 3 = .ok similar ∧
      t = { s with modelCalls := calls } ∧
      (judgeAll host proposal.content (conflictCandidates proposal similar)).run s =
        (.ok (outcome, found), t) := by
  obtain ⟨similar, u, hretrieve, hjudge⟩ := Program.run_bind_ok h
  rw [retrieve_run] at hretrieve
  obtain ⟨hsimilar, rfl⟩ := Prod.mk.inj hretrieve
  obtain ⟨calls, hcalls⟩ := judgeAll_state host proposal.content
    (conflictCandidates proposal similar) s
  rw [hjudge] at hcalls
  exact ⟨similar, calls, hsimilar, hcalls, hjudge⟩

/-- INTERNAL: a proposal with a provenance bumps what it duplicates, or is added.
SOURCE: memory/broker.py:39-92 -/
theorem propose_ok (hprovenance : provenanceOf proposal ≠ none)
    (hrun : (MemoryBroker.propose host proposal).run s = (.ok (), t)) :
    Bumped host s proposal t ∨ Added host s proposal t := by
  unfold MemoryBroker.propose at hrun
  split at hrun
  · next hnone => exact absurd hnone hprovenance
  · next provenance _ =>
    simp only at hrun
    obtain ⟨expiresAt, s₁, hexpires, hrun⟩ := Program.run_bind_ok hrun
    obtain ⟨⟨resolution, old⟩, s₂, hresolve, hrun⟩ := Program.run_bind_ok hrun
    obtain ⟨now, s₃, hnow, hrun⟩ := Program.run_bind_ok hrun
    cases hexpires
    cases hnow
    obtain ⟨similar, calls, hsimilar, rfl, hjudge⟩ := resolveConflicts_ok hresolve
    have hduplicate : ∀ m, DuplicateOf host s proposal m ↔
        JudgedDuplicate host proposal.content s.modelCalls (conflictCandidates proposal similar)
          m := by
      intro m
      constructor
      · rintro ⟨-, similar', hsimilar', hjudged⟩
        have heq : similar' = similar := Except.ok.inj (hsimilar'.symm.trans hsimilar)
        rwa [heq] at hjudged
      · intro hjudged
        exact ⟨hprovenance, similar, hsimilar, hjudged⟩
    have hstored : ∀ m ∈ conflictCandidates proposal similar,
        MemoryRepository.ofStores s m.id = some m ∧ m.profileId = proposal.profileId :=
      fun m hm => conflictCandidate_stored hsimilar hm
    rcases judgeAll_ok hjudge with ⟨m, hm, rfl, rfl, hiff⟩ | ⟨hout, hnone⟩
    · left
      cases hrun
      refine ⟨m, _, (hstored m hm).1, (hstored m hm).2, ?_, rfl⟩
      intro m'
      rw [hduplicate]
      exact hiff m'
    · right
      have hno : ∀ m, ¬ DuplicateOf host s proposal m := by
        intro m
        rw [hduplicate]
        exact hnone m
      rcases hout with ⟨m, hm, rfl, rfl⟩ | ⟨rfl, rfl⟩
      · cases hrun
        refine ⟨_, _, hno, rfl, rfl, rfl, rfl, .inr ⟨_, ?_, rfl⟩, rfl⟩
        simp [(hstored m hm).1]
      · cases hrun
        exact ⟨_, _, hno, rfl, rfl, rfl, rfl, .inl rfl, rfl⟩

end Outcomes

/-! ## Nothing is lost -/

/-- The profile has an active memory with the proposal's content. -/
def AlreadyKnown (s : MemoryStores) (proposal : MemoryProposal) : Prop :=
  ∃ id memory, MemoryRepository.ofStores s id = some memory ∧
    memory.profileId = proposal.profileId ∧ memory.status = .active ∧
    memory.content = proposal.content

/-- The profile has an active memory that stands for the proposal: one with its content, or the one it
was judged to be a duplicate of. -/
def ProposalKept (host : MemoryHost) (s : MemoryStores) (proposal : MemoryProposal)
    (t : MemoryStores) : Prop :=
  ∃ id memory, MemoryRepository.ofStores t id = some memory ∧
    memory.profileId = proposal.profileId ∧ memory.status = .active ∧
    (memory.content = proposal.content ∨
      ∃ old, DuplicateOf host s proposal old ∧ memory.id = old.id)

section Kept

variable {host : MemoryHost} {s t : MemoryStores} {proposal : MemoryProposal}

/-- INTERNAL: an update keeps the memory's identifier. -/
theorem merge_keepsKey : Table.KeepsKey Memory.id MemoryRepository.merge := fun _ _ => rfl

/-- INTERNAL: without a duplicate the new memory keeps the proposal. -/
theorem Added.kept (h : Added host s proposal t)
    (hfresh : MemoryRepository.ofStores s (host.newId s.nextId) = none) :
    ProposalKept host s proposal t := by
  obtain ⟨before, new, -, hid, hprofile, hstatus, hcontent, hbefore, ht⟩ := h
  have hnew : Table.lookup Memory.id before new.id = none := by
    rw [hid]
    rcases hbefore with rfl | ⟨retired, hretired, rfl⟩
    · exact hfresh
    · rw [Table.lookup_upsert_of_ne merge_keepsKey]
      · exact hfresh
      · intro heq
        rw [heq] at hretired
        exact hretired hfresh
  refine ⟨new.id, new, ?_, hprofile, hstatus, .inl hcontent⟩
  unfold MemoryRepository.ofStores
  rw [ht, Table.lookup_upsert_self merge_keepsKey, hnew]
  rfl

/-- INTERNAL: what is stored after the time stamp of a memory was bumped. -/
theorem ofStores_bumped {old : Memory} {now : Time}
    (hold : MemoryRepository.ofStores s old.id = some old)
    (ht : t.memories = Table.upsert Memory.id MemoryRepository.merge
      { old with updatedAt := some now } s.memories) (id : String) :
    MemoryRepository.ofStores t id =
      if id = old.id then some { old with updatedAt := some now }
      else MemoryRepository.ofStores s id := by
  unfold MemoryRepository.ofStores at hold ⊢
  rw [ht]
  split
  · next heq =>
    rw [heq]
    have hself := Table.lookup_upsert_self merge_keepsKey s.memories
      { old with updatedAt := some now }
    rw [hself, hold]
    rfl
  · next hne => exact Table.lookup_upsert_of_ne merge_keepsKey _ (Ne.symm hne)

/-- INTERNAL: a bumped memory keeps the proposal exactly when it is active, or the profile knew the
content already. -/
theorem Bumped.kept_iff (h : Bumped host s proposal t) :
    ProposalKept host s proposal t ↔
      AlreadyKnown s proposal ∨ ∀ old, DuplicateOf host s proposal old → old.status = .active := by
  obtain ⟨old, now, hold, hprofile, hiff, ht⟩ := h
  have hlookup := ofStores_bumped hold ht
  constructor
  · rintro ⟨id, memory, hmemory, hown, hactive, hwhy⟩
    have hid : memory.id = id := Table.lookup_eq_some_key hmemory
    rw [hlookup] at hmemory
    split at hmemory
    · right
      intro m hm
      rw [(hiff m).mp hm]
      cases hmemory
      exact hactive
    · next hne =>
      rcases hwhy with hcontent | ⟨m, hm, hmid⟩
      · exact .inl ⟨id, memory, hmemory, hown, hactive, hcontent⟩
      · rw [(hiff m).mp hm, hid] at hmid
        exact absurd hmid hne
  · rintro (⟨id, memory, hmemory, hown, hactive, hcontent⟩ | hall)
    · by_cases hid : id = old.id
      · have hsame : memory = old := by
          rw [hid, hold] at hmemory
          exact (Option.some.inj hmemory).symm
        refine ⟨id, { old with updatedAt := some now }, ?_, hprofile, ?_, .inl ?_⟩
        · rw [hlookup, if_pos hid]
        · rw [← hactive, hsame]
        · rw [← hcontent, hsame]
      · refine ⟨id, memory, ?_, hown, hactive, .inl hcontent⟩
        rw [hlookup, if_neg hid]
        exact hmemory
    · have hself := (hiff old).mpr rfl
      refine ⟨old.id, { old with updatedAt := some now }, ?_, hprofile, hall old hself,
        .inr ⟨old, hself, rfl⟩⟩
      rw [hlookup, if_pos rfl]

end Kept

/-- When the broker has dealt with a proposal, its profile has an active memory with the content, or
the active memory that the model judged it to duplicate, if and only if it had one with the content
before, or the proposal has a provenance and what the model judges it to duplicate is active. -/
theorem proposal_kept_iff (host : MemoryHost) {s t : MemoryStores} (proposal : MemoryProposal)
    (hfresh : MemoryRepository.ofStores s (host.newId s.nextId) = none)
    (hrun : (MemoryBroker.propose host proposal).run s = (.ok (), t)) :
    ProposalKept host s proposal t ↔
      AlreadyKnown s proposal ∨
        (provenanceOf proposal ≠ none ∧
          ∀ old, DuplicateOf host s proposal old → old.status = .active) := by
  by_cases hprovenance : provenanceOf proposal = none
  · have hsame : t = s := by
      unfold MemoryBroker.propose at hrun
      rw [hprovenance] at hrun
      cases hrun
      rfl
    rw [hsame]
    constructor
    · rintro ⟨id, memory, hmemory, hown, hactive, hcontent | ⟨old, hold, -⟩⟩
      · exact .inl ⟨id, memory, hmemory, hown, hactive, hcontent⟩
      · exact absurd hprovenance hold.1
    · rintro (⟨id, memory, hmemory, hown, hactive, hcontent⟩ | ⟨hsome, -⟩)
      · exact ⟨id, memory, hmemory, hown, hactive, .inl hcontent⟩
      · exact absurd hprovenance hsome
  · rcases propose_ok hprovenance hrun with hbumped | hadded
    · rw [hbumped.kept_iff]
      simp [hprovenance]
    · constructor
      · intro _
        obtain ⟨_, _, hnone, -⟩ := hadded
        exact .inr ⟨hprovenance, fun old hold => absurd hold (hnone old)⟩
      · intro _
        exact hadded.kept hfresh

/-! ## A fact that expired and is learnt again -/

/-- Something the profile of the facts says. -/
def proposalOf (content : String) : MemoryProposal :=
  { profileId := "profile"
    type := .fact
    content := content
    source := "llm_extraction"
    taskId := none
    requestId := some "request" }

/-- The stores after a proposal. -/
def afterProposal (s : MemoryStores) (content : String) : MemoryStores :=
  ((MemoryBroker.propose MemoryHost.plain (proposalOf content)).run s).2

/-- A fact that has expired is proposed again, judged to duplicate what expired, and lost. -/
theorem relearnt_fact_lost :
    History (memoryUsage MemoryHost.plain) {} factsExpired ∧
      (MemoryBroker.propose MemoryHost.plain (proposalOf "green tea")).run factsExpired =
        (.ok (), afterProposal factsExpired "green tea") ∧
      ¬ ProposalKept MemoryHost.plain factsExpired (proposalOf "green tea")
        (afterProposal factsExpired "green tea") := by
  refine ⟨history_factsExpired, ?_, ?_⟩
  · apply Prod.ext
    · show ((MemoryBroker.propose _ _).run _).1 = .ok ()
      decide +kernel
    · rfl
  · rintro ⟨id, memory, hmemory, -, hactive, -⟩
    have hin := Table.lookup_mem hmemory
    have hall : ∀ m ∈ (afterProposal factsExpired "green tea").memories, m.status ≠ .active := by
      decide +kernel
    exact hall memory hin hactive

/-- A fact nobody knew is kept. -/
theorem new_fact_kept :
    ProposalKept MemoryHost.plain threeFacts (proposalOf "blue sky")
      (afterProposal threeFacts "blue sky") := by
  have hrun : (MemoryBroker.propose MemoryHost.plain (proposalOf "blue sky")).run threeFacts =
      (.ok (), afterProposal threeFacts "blue sky") := by
    apply Prod.ext
    · show ((MemoryBroker.propose _ _).run _).1 = .ok ()
      decide +kernel
    · rfl
  apply (proposal_kept_iff MemoryHost.plain (proposalOf "blue sky") (by decide) hrun).mpr
  right
  refine ⟨by decide, ?_⟩
  rintro old ⟨-, similar, hsimilar, hjudged⟩
  have hnone : retrieveIn MemoryHost.plain threeFacts "blue sky" "profile" 3 = .ok [] := by
    decide +kernel
  have hempty : similar = [] := Except.ok.inj (hsimilar.symm.trans hnone)
  rw [hempty] at hjudged
  cases hjudged

end Shea.Analysis
