import Shea.Computation.History
import Shea.Computation.Ranking
import Shea.Model.Memory
import Shea.Model.Sample

/-!
# What a retrieval returns

The text index knows contents, the table knows which memories are alive; they meet when a query joins
them. The join keeps the memories of the profile that asks and takes them as they are stored now, so
what is returned belongs to the profile, once each and best first. Whether it is alive is never asked:
an expired memory stays in the index, and is returned unless enough better hits crowd it out.
-/

set_option autoImplicit false

namespace Shea.Analysis

open Shea.Computation Shea.Model
open Shea.Model.HybridMemoryRetriever (candidates rehydrate retrieveIn)

/-! ## Histories of the stores -/

/-- The calls on the memory subsystem. -/
inductive MemoryCall (host : MemoryHost) : MemoryProc Unit → Prop
  | store (memory : Memory) : MemoryCall host (MemoryService.store memory)
  | propose (proposal : MemoryProposal) : MemoryCall host (MemoryBroker.propose host proposal)
  | expire : MemoryCall host (MemoryLifecycleEnforcer.expireMemories host).void
  | purge : MemoryCall host MemoryLifecycleEnforcer.purgeDeletedMemories.void
  | delete (memoryId : String) : MemoryCall host (MemoryService.delete memoryId)

/-- Any calls in any order, and a crash after any transaction. -/
def memoryUsage (host : MemoryHost) : Usage MemoryStores Err := .free (MemoryCall host) id

/-- The index has a row at most for every id. -/
def IndexDistinct (s : MemoryStores) : Prop := (s.index.map FtsRow.id).Nodup

/-- The steps of the subsystem. -/
def KeepsIndexDistinct (a b : MemoryStores) : Prop := IndexDistinct a → IndexDistinct b

/-- INTERNAL: the rows that are selected have different ids. -/
theorem IndexDistinct.filter {s : MemoryStores} (h : IndexDistinct s) (p : FtsRow → Bool) :
    ((s.index.filter p).map FtsRow.id).Nodup :=
  h.sublist (List.filter_sublist.map _)

/-- INTERNAL: a row is deleted before one with its id is inserted.
SOURCE: persistence/vector/fts_adapter.py:25-33 -/
theorem upsert_keeps (memoryId content profileId : String) :
    (FtsVectorStore.upsert memoryId content profileId).Guarantee KeepsIndexDistinct := by
  apply Program.guarantee_modify
  intro s h
  unfold IndexDistinct
  rw [List.map_append, List.nodup_append]
  refine ⟨h.filter _, by simp, ?_⟩
  intro a ha b hb
  simp only [List.map_cons, List.map_nil, List.mem_singleton] at hb
  obtain ⟨row, hrow, rfl⟩ := List.mem_map.mp ha
  rw [hb]
  simpa using (List.mem_filter.mp hrow).2

/-- INTERNAL: a memory is stored. -/
theorem store_keeps (memory : Memory) :
    (MemoryService.store memory).Guarantee KeepsIndexDistinct := by
  apply Program.guarantee_bind
  · exact Program.guarantee_modify fun _ h => h
  · intro _
    exact upsert_keeps ..

/-- INTERNAL: the clock. -/
theorem memoryNow_keeps (host : MemoryHost) : (memoryNow host).Guarantee KeepsIndexDistinct :=
  Program.guarantee_act _ fun _ h => h

/-- INTERNAL: conflicts are judged. -/
theorem judgeAll_keeps (host : MemoryHost) (content : String) (olds : List Memory) :
    (MemoryBroker.judgeAll host content olds).Guarantee KeepsIndexDistinct := by
  induction olds with
  | nil => trivial
  | cons old rest ih =>
    apply Program.guarantee_bind
    · exact Program.guarantee_act _ fun _ h => h
    · intro response
      apply Program.guarantee_bind (Program.guarantee_ofExcept _)
      intro response
      apply Program.guarantee_bind (Program.guarantee_ofExcept _)
      intro outcome
      split
      · trivial
      · exact ih

/-- INTERNAL: and resolved. -/
theorem resolveConflicts_keeps (host : MemoryHost) (proposal : MemoryProposal) :
    (MemoryBroker.resolveConflicts host proposal).Guarantee KeepsIndexDistinct := by
  apply Program.guarantee_bind
  · apply Program.guarantee_bind
    · exact Program.guarantee_get (fun _ h => h) _
    · intro results
      exact Program.guarantee_ofExcept _
  · intro similar
    exact judgeAll_keeps ..

/-- INTERNAL: a memory is proposed. -/
theorem propose_keeps (host : MemoryHost) (proposal : MemoryProposal) :
    (MemoryBroker.propose host proposal).Guarantee KeepsIndexDistinct := by
  unfold MemoryBroker.propose
  split
  · trivial
  · apply Program.guarantee_bind
    · apply Program.guarantee_bind (memoryNow_keeps host)
      intro now
      trivial
    intro expiresAt
    apply Program.guarantee_bind (resolveConflicts_keeps host proposal)
    rintro ⟨resolution, old⟩
    apply Program.guarantee_bind (memoryNow_keeps host)
    intro now
    apply Program.guarantee_bind
    · unfold MemoryBroker.applyResolution
      split
      · exact Program.guarantee_bind (store_keeps _) fun _ => trivial
      · exact Program.guarantee_bind (store_keeps _) fun _ => trivial
      · trivial
    intro goesOn
    split
    · apply Program.guarantee_bind
      · exact Program.guarantee_act _ fun _ h => h
      · intro id
        exact store_keeps _
    · trivial

/-- INTERNAL: every call keeps the ids of the index distinct, at every step. -/
theorem memoryCall_keeps {host : MemoryHost} {p : MemoryProc Unit} (h : MemoryCall host p) :
    p.Guarantee KeepsIndexDistinct := by
  cases h with
  | store memory => exact store_keeps memory
  | propose proposal => exact propose_keeps host proposal
  | expire =>
    apply Program.guarantee_bind
    · apply Program.guarantee_bind (memoryNow_keeps host)
      intro now
      exact Program.guarantee_act _ fun _ h => h
    · intro _
      trivial
  | purge =>
    apply Program.guarantee_bind
    · exact Program.guarantee_act _ fun _ h => h
    · intro _
      trivial
  | delete memoryId =>
    apply Program.guarantee_bind
    · exact Program.guarantee_modify fun s h => h.filter _
    · intro _
      exact Program.guarantee_modify fun _ h => h

/-- INTERNAL: whatever happened to the stores, the index has each id once. -/
theorem index_distinct {host : MemoryHost} {s : MemoryStores}
    (h : History (memoryUsage host) {} s) : IndexDistinct s := by
  apply History.invariant_of_sat (R := KeepsIndexDistinct) _ _ _ h
  · exact List.nodup_nil
  · intro p s hp hs
    exact (memoryCall_keeps hp).sat_of_inv (fun a b ha hab => ⟨hab, hab ha⟩) hs
  · intro s t hs hchain
    induction hchain with
    | refl => exact hs
    | tail _ hstep ih => exact hstep ih

/-! ## The candidates -/

section Candidates

variable {host : MemoryHost} {s : MemoryStores} {query profileId : String} {limit : ℤ}
  {found : List RetrievalResult}

/-- Better candidates come first; the sort keeps those of one score in the order of the hits. -/
abbrev Ranks (a b : RetrievalResult) : Prop := b.score ≤ a.score

instance : Std.Total Ranks := ⟨fun a b => le_total b.score a.score⟩

instance : IsTrans RetrievalResult Ranks := ⟨fun _ _ _ hab hbc => le_trans hbc hab⟩

/-- INTERNAL: the text search finds every id at most once.
SOURCE: persistence/vector/fts_adapter.py:35-82 -/
theorem searchIn_distinct {hits : List (String × Score)} (hs : IndexDistinct s)
    (h : FtsVectorStore.searchIn host s query limit profileId = .ok hits) :
    (hits.map Prod.fst).Nodup := by
  unfold FtsVectorStore.searchIn at h
  simp only at h
  split at h
  · cases h
    exact List.nodup_nil
  · split at h
    · cases h
      rw [List.map_map]
      have hlimited : ∀ rows : List FtsRow,
          (FtsVectorStore.limited rows limit).Sublist rows := by
        intro rows
        unfold FtsVectorStore.limited
        split
        · exact List.take_sublist _ _
        · exact List.Sublist.refl rows
      apply List.Nodup.sublist ((hlimited _).map _)
      apply ((List.perm_insertionSort _ _).map _).nodup_iff.mpr
      exact hs.filter _
    · cases h

/-- INTERNAL: a rehydrated hit is the stored memory of its id, and belongs to the profile.
SOURCE: memory/retrieval/ranking.py:22-29 -/
theorem rehydrate_eq_some {hit : String × Score} {r : RetrievalResult}
    (h : rehydrate host s profileId hit = some r) :
    MemoryRepository.ofStores s r.memory.id = some r.memory ∧ r.memory.id = hit.1 ∧
      r.memory.profileId = profileId := by
  unfold rehydrate at h
  split at h
  · cases h
  · next memory hmemory =>
    split at h
    · next hprofile =>
      cases h
      have hid : memory.id = hit.1 := Table.lookup_eq_some_key hmemory
      rw [hid]
      exact ⟨hmemory, rfl, hprofile⟩
    · cases h

/-- INTERNAL: hits that are rehydrated keep their order. -/
theorem rehydrated_ids (hits : List (String × Score)) :
    ((hits.filterMap (rehydrate host s profileId)).map (·.memory.id)).Sublist
      (hits.map Prod.fst) := by
  induction hits with
  | nil => exact List.Sublist.refl []
  | cons hit rest ih =>
    rw [List.filterMap_cons, List.map_cons]
    split
    · exact ih.cons _
    · next r hr =>
      rw [List.map_cons, (rehydrate_eq_some hr).2.1]
      exact ih.cons_cons _

/-- INTERNAL: the candidates are rehydrated hits. -/
theorem candidates_eq_ok (h : candidates host s query profileId limit = .ok found) :
    ∃ hits, FtsVectorStore.searchIn host s query (limit * 2) profileId = .ok hits ∧
      found = hits.filterMap (rehydrate host s profileId) := by
  unfold candidates at h
  cases hsearch : FtsVectorStore.searchIn host s query (limit * 2) profileId with
  | error e =>
    rw [hsearch] at h
    cases h
  | ok hits =>
    rw [hsearch] at h
    cases h
    exact ⟨hits, rfl, rfl⟩

/-- No memory is found twice. -/
theorem candidates_distinct (hs : IndexDistinct s)
    (h : candidates host s query profileId limit = .ok found) :
    (found.map (·.memory.id)).Nodup := by
  obtain ⟨hits, hsearch, rfl⟩ := candidates_eq_ok h
  exact (searchIn_distinct hs hsearch).sublist (rehydrated_ids hits)

/-- INTERNAL: the candidates are stored memories of the profile. -/
theorem candidates_stored (h : candidates host s query profileId limit = .ok found)
    {r : RetrievalResult} (hr : r ∈ found) :
    MemoryRepository.ofStores s r.memory.id = some r.memory ∧ r.memory.profileId = profileId := by
  obtain ⟨hits, -, rfl⟩ := candidates_eq_ok h
  obtain ⟨hit, -, hhit⟩ := List.mem_filterMap.mp hr
  obtain ⟨hstored, -, hprofile⟩ := rehydrate_eq_some hhit
  exact ⟨hstored, hprofile⟩

/-- INTERNAL: the results are the first of the ranked candidates. -/
theorem retrieveIn_eq_ok {results : List RetrievalResult}
    (h : retrieveIn host s query profileId limit = .ok results) :
    ∃ found, candidates host s query profileId limit = .ok found ∧
      results = sliceTo (found.insertionSort Ranks) limit := by
  unfold retrieveIn at h
  cases hcandidates : candidates host s query profileId limit with
  | error e =>
    rw [hcandidates] at h
    cases h
  | ok found =>
    rw [hcandidates] at h
    cases h
    exact ⟨found, rfl, rfl⟩

/-- INTERNAL: on the stores a retrieval only looks. -/
theorem retrieve_run :
    (MemoryService.retrieve host query profileId limit).run s =
      (retrieveIn host s query profileId limit, s) := by
  unfold MemoryService.retrieve
  rw [Program.run_bind, Program.run_get]
  exact Program.run_ofExcept _ _

end Candidates

/-! ## Live results -/

/-- What a profile may expect of a retrieval: live memories of its own, no more than it asked for,
none twice, best first. -/
structure LiveResults (s : MemoryStores) (profileId : String) (limit : ℤ)
    (results : List RetrievalResult) : Prop where
  own : ∀ r ∈ results, r.memory.profileId = profileId
  stored : ∀ r ∈ results, MemoryRepository.ofStores s r.memory.id = some r.memory
  active : ∀ r ∈ results, r.memory.status = .active
  bounded : (results.length : ℤ) ≤ limit
  distinct : (results.map (·.memory.id)).Nodup
  ranked : results.Pairwise Ranks

section Crowding

variable (host : MemoryHost) (s : MemoryStores) (query profileId : String) (limit : ℤ)

/-- What the text search asks for. -/
def searchText : String := FtsVectorStore.matchQuery (FtsVectorStore.safeQuery host query)

/-- The rows of the index that match the query, for the profile; the empty one is every profile. -/
def matching : List FtsRow :=
  if (FtsVectorStore.safeQuery host query).isEmpty then []
  else s.index.filter fun row =>
    host.fts.matchesContent (searchText host query) row.content &&
      (profileId = "" || row.profileId = profileId)

/-- The text search ranks the first row no later. -/
abbrev Closer (a b : FtsRow) : Prop :=
  host.fts.bm25 s.index (searchText host query) a ≤ host.fts.bm25 s.index (searchText host query) b

instance : Std.Total (Closer host s query) := ⟨fun _ _ => le_total _ _⟩

instance : IsTrans FtsRow (Closer host s query) := ⟨fun _ _ _ hab hbc => le_trans hab hbc⟩

/-- The row is a hit: fewer than twice `limit` matching rows are ranked before it, those of the same rank
in the order of the index. -/
def IsHit (row : FtsRow) : Prop :=
  row ∈ matching host s query profileId ∧
    ((matching host s query profileId).countP fun other =>
      GoesBefore (Closer host s query) (matching host s query profileId) other row : ℤ) < limit * 2

/-- The memory stored under the id of the row, if it belongs to the profile. -/
def ownMemory (row : FtsRow) : Option Memory :=
  (MemoryRepository.ofStores s row.id).filter (·.profileId = profileId)

/-- The similarity of the row times the confidence of its memory. -/
def weight (row : FtsRow) (memory : Memory) : Score :=
  host.mul (scoreOf |host.fts.bm25 s.index (searchText host query) row|) memory.confidence

/-- The other row is a hit with a memory of the profile that weighs more than this one, or as much and is
ranked before it. -/
def Beats (other row : FtsRow) (memory : Memory) : Prop :=
  IsHit host s query profileId limit other ∧ (ownMemory s profileId other).any fun better =>
    weight host s query row memory < weight host s query other better ∨
      weight host s query row memory = weight host s query other better ∧
        GoesBefore (Closer host s query) (matching host s query profileId) other row

instance (row : FtsRow) : Decidable (IsHit host s query profileId limit row) :=
  inferInstanceAs (Decidable (_ ∧ _))

instance (other row : FtsRow) (memory : Memory) :
    Decidable (Beats host s query profileId limit other row memory) :=
  inferInstanceAs (Decidable (_ ∧ _))

/-- Every memory of the profile that is not active and whose row is a hit is beaten by `limit` others. -/
def StaleCrowdedOut : Prop :=
  ∀ row memory, IsHit host s query profileId limit row → ownMemory s profileId row = some memory →
    memory.status ≠ .active →
    limit ≤ (matching host s query profileId).countP fun other =>
      Beats host s query profileId limit other row memory

end Crowding

section Hits

variable {host : MemoryHost} {s : MemoryStores} {query profileId : String} {limit : ℤ}
  {found : List RetrievalResult}

/-- INTERNAL: nor does a row match twice. -/
theorem matching_nodup (hs : IndexDistinct s) : (matching host s query profileId).Nodup := by
  unfold matching
  split
  · exact List.nodup_nil
  · exact (hs.filter _).of_map

/-- INTERNAL: the rows that the text search answers with.
SOURCE: persistence/vector/fts_adapter.py:35-82 -/
def hitRows (host : MemoryHost) (s : MemoryStores) (query profileId : String) (limit : ℤ) : List FtsRow :=
  ((matching host s query profileId).insertionSort (Closer host s query)).take (limit * 2).toNat

/-- The hits are the rows that few matching rows come before. -/
theorem mem_hitRows (hs : IndexDistinct s) (hlimit : 0 ≤ limit) {row : FtsRow} :
    row ∈ hitRows host s query profileId limit ↔ IsHit host s query profileId limit row := by
  unfold hitRows IsHit
  constructor
  · intro hin
    have hmatches : row ∈ matching host s query profileId :=
      (List.mem_insertionSort _).mp (List.mem_of_mem_take hin)
    refine ⟨hmatches, ?_⟩
    have hfew := (mem_take_insertionSort (matching_nodup hs) hmatches).mp hin
    omega
  · rintro ⟨hmatches, hfew⟩
    refine (mem_take_insertionSort (matching_nodup hs) hmatches).mpr ?_
    omega

/-- INTERNAL: no row is a hit twice. -/
theorem hitRows_nodup (hs : IndexDistinct s) : (hitRows host s query profileId limit).Nodup :=
  ((List.perm_insertionSort _ _).nodup_iff.mpr (matching_nodup hs)).sublist (List.take_sublist _ _)

/-- INTERNAL: a hit is joined with its memory.
SOURCE: memory/retrieval/ranking.py:22-30 -/
def joined (host : MemoryHost) (s : MemoryStores) (query profileId : String) (row : FtsRow) :
    Option RetrievalResult :=
  (ownMemory s profileId row).map fun memory => ⟨memory, weight host s query row memory⟩

/-- INTERNAL: the candidates are the rows of the hits, joined with their memories. -/
theorem candidates_eq (hlimit : 0 ≤ limit) (h : candidates host s query profileId limit = .ok found) :
    found = (hitRows host s query profileId limit).filterMap (joined host s query profileId) := by
  obtain ⟨hits, hsearch, rfl⟩ := candidates_eq_ok h
  have hlimited : ∀ rows : List FtsRow,
      FtsVectorStore.limited rows (limit * 2) = rows.take (limit * 2).toNat := by
    intro rows
    unfold FtsVectorStore.limited
    rw [if_pos (by omega)]
  have hjoined : ∀ row : FtsRow, rehydrate host s profileId
      (row.id, scoreOf |host.fts.bm25 s.index (searchText host query) row|) =
        joined host s query profileId row := by
    intro row
    unfold rehydrate joined ownMemory weight
    cases MemoryRepository.ofStores s row.id with
    | none => rfl
    | some memory => by_cases hown : memory.profileId = profileId <;> simp [Option.filter, hown]
  unfold FtsVectorStore.searchIn at hsearch
  unfold hitRows matching
  dsimp only at hsearch
  split at hsearch
  · next hempty =>
    obtain rfl := Except.ok.inj hsearch
    rw [if_pos hempty, List.insertionSort_nil, List.take_nil]
    rfl
  · next hasks =>
    rw [if_neg hasks]
    split at hsearch
    · obtain rfl := Except.ok.inj hsearch
      rw [List.filterMap_map, hlimited]
      exact congrArg (fun f => List.filterMap f _) (funext hjoined)
    · cases hsearch

/-- INTERNAL: of two hits one goes before the other among the candidates if its row beats it.
SOURCE: memory/retrieval/ranking.py:31-34 -/
theorem goesBefore_joined_iff (hs : IndexDistinct s) {other row : FtsRow} {better memory : Memory}
    (hnodup : ((hitRows host s query profileId limit).filterMap (joined host s query profileId)).Nodup)
    (hother : other ∈ hitRows host s query profileId limit)
    (hrow : row ∈ hitRows host s query profileId limit)
    (hbetter : ownMemory s profileId other = some better) (hown : ownMemory s profileId row = some memory) :
    GoesBefore Ranks ((hitRows host s query profileId limit).filterMap (joined host s query profileId))
        ⟨better, weight host s query other better⟩ ⟨memory, weight host s query row memory⟩ ↔
      weight host s query row memory < weight host s query other better ∨
        weight host s query row memory = weight host s query other better ∧
          GoesBefore (Closer host s query) (matching host s query profileId) other row := by
  have hplaces := pair_sublist_filterMap hnodup hother hrow
    (show joined host s query profileId other = some ⟨better, weight host s query other better⟩ by
      rw [joined, hbetter]
      rfl)
    (show joined host s query profileId row = some ⟨memory, weight host s query row memory⟩ by
      rw [joined, hown]
      rfl)
  have hrows : [other, row].Sublist (hitRows host s query profileId limit) ↔
      GoesBefore (Closer host s query) (matching host s query profileId) other row :=
    pair_take_insertionSort (matching_nodup hs) hother hrow
  rw [GoesBefore, hplaces, hrows]
  constructor
  · rintro ⟨hle, htie⟩
    rcases lt_or_eq_of_le hle with hlt | heq
    · exact .inl hlt
    · exact .inr ⟨heq, htie heq.ge⟩
  · rintro (hlt | ⟨heq, hbefore⟩)
    · exact ⟨hlt.le, fun hle => absurd hlt (not_lt_of_ge hle)⟩
    · exact ⟨heq.le, fun _ => hbefore⟩

/-- INTERNAL: what goes before a hit among the candidates is what beats its row. -/
theorem countP_goesBefore (hs : IndexDistinct s) (hlimit : 0 ≤ limit) {row : FtsRow} {memory : Memory}
    (hnodup : ((hitRows host s query profileId limit).filterMap (joined host s query profileId)).Nodup)
    (hrow : row ∈ hitRows host s query profileId limit) (hown : ownMemory s profileId row = some memory) :
    ((hitRows host s query profileId limit).filterMap (joined host s query profileId)).countP (fun other =>
        GoesBefore Ranks
          ((hitRows host s query profileId limit).filterMap (joined host s query profileId)) other
          ⟨memory, weight host s query row memory⟩) =
      (matching host s query profileId).countP fun other =>
        Beats host s query profileId limit other row memory := by
  rw [List.countP_filterMap, countP_part _ (hitRows_nodup hs) (matching_nodup hs) fun other hin =>
    (List.mem_insertionSort _).mp (List.mem_of_mem_take hin)]
  refine List.countP_congr fun other _ => ?_
  rw [decide_eq_true_eq, decide_eq_true_eq, mem_hitRows hs hlimit]
  unfold Beats
  refine and_congr_right fun hhit => ?_
  cases hbetter : ownMemory s profileId other with
  | none => simp [joined, hbetter]
  | some better =>
    have hother := (mem_hitRows hs hlimit).mpr hhit
    simpa [joined, hbetter] using goesBefore_joined_iff hs hnodup hother hrow hbetter hown

/-- INTERNAL: the condition on the stores, in terms of the candidates. -/
theorem staleCrowdedOut_iff (hs : IndexDistinct s) (hlimit : 0 ≤ limit)
    (h : candidates host s query profileId limit = .ok found) :
    StaleCrowdedOut host s query profileId limit ↔
      ∀ r ∈ found, r.memory.status ≠ .active →
        limit ≤ found.countP fun other => GoesBefore Ranks found other r := by
  have hids := candidates_distinct hs h
  obtain rfl := candidates_eq hlimit h
  have hnodup := hids.of_map
  constructor
  · intro hcrowded r hr hstale
    obtain ⟨row, hrow, hjoined⟩ := List.mem_filterMap.mp hr
    obtain ⟨memory, hown, rfl⟩ := Option.map_eq_some_iff.mp hjoined
    rw [countP_goesBefore hs hlimit hnodup hrow hown]
    exact hcrowded row memory ((mem_hitRows hs hlimit).mp hrow) hown hstale
  · intro hcrowded row memory hhit hown hstale
    have hrow := (mem_hitRows hs hlimit).mpr hhit
    have hin : (⟨memory, weight host s query row memory⟩ : RetrievalResult) ∈
        (hitRows host s query profileId limit).filterMap (joined host s query profileId) := by
      refine List.mem_filterMap.mpr ⟨row, hrow, ?_⟩
      rw [joined, hown]
      rfl
    have hmany := hcrowded _ hin hstale
    rw [countP_goesBefore hs hlimit hnodup hrow hown] at hmany
    exact hmany

end Hits

/-- INTERNAL: everything but the status is seen to.
SOURCE: memory/retrieval/ranking.py:15-34 -/
theorem sliced_live_iff {s : MemoryStores} {profileId : String} {limit : ℤ}
    {found : List RetrievalResult} (hlimit : 0 ≤ limit)
    (hids : (found.map (·.memory.id)).Nodup)
    (hfound : ∀ r ∈ found, MemoryRepository.ofStores s r.memory.id = some r.memory ∧
      r.memory.profileId = profileId) :
    LiveResults s profileId limit (sliceTo (found.insertionSort Ranks) limit) ↔
      ∀ r ∈ found, r.memory.status ≠ .active →
        limit ≤ found.countP fun other => GoesBefore Ranks found other r := by
  have hslice : sliceTo (found.insertionSort Ranks) limit =
      (found.insertionSort Ranks).take limit.toNat := if_pos hlimit
  have hsub : ((found.insertionSort Ranks).take limit.toNat).Sublist (found.insertionSort Ranks) :=
    List.take_sublist _ _
  have hin : ∀ r ∈ (found.insertionSort Ranks).take limit.toNat, r ∈ found := by
    intro r hr
    exact (List.mem_insertionSort _).mp (hsub.subset hr)
  have hplace : ∀ r ∈ found, r ∈ (found.insertionSort Ranks).take limit.toNat ↔
      (found.countP fun other => GoesBefore Ranks found other r) < limit.toNat := by
    intro r hr
    exact mem_take_insertionSort hids.of_map hr
  rw [hslice]
  constructor
  · intro hlive r hr hstale
    by_contra hfew
    apply hstale
    apply hlive.active r
    rw [hplace r hr]
    omega
  · intro hcrowded
    refine ⟨?_, ?_, ?_, ?_, ?_, ?_⟩
    · intro r hr
      exact (hfound r (hin r hr)).2
    · intro r hr
      exact (hfound r (hin r hr)).1
    · intro r hr
      by_contra hstale
      have hmany := hcrowded r (hin r hr) hstale
      have hfew := (hplace r (hin r hr)).mp hr
      omega
    · have hlength := List.length_take_le limit.toNat (found.insertionSort Ranks)
      omega
    · apply List.Nodup.sublist (hsub.map _)
      exact ((List.perm_insertionSort Ranks found).map _).nodup_iff.mpr hids
    · exact (List.pairwise_insertionSort Ranks found).sublist hsub

/-- After any history of the stores, a retrieval returns live memories of the profile, no more than
the limit, none twice and best first, if and only if the limit is not negative and every hit of the text
search whose memory is not active is beaten by `limit` others.
SOURCE: memory/retrieval/ranking.py:15-34, persistence/vector/fts_adapter.py:35-82 -/
theorem retrieved_live_iff (host : MemoryHost) {s : MemoryStores}
    (h : History (memoryUsage host) {} s) (query profileId : String) (limit : ℤ)
    {results : List RetrievalResult}
    (hrun : ((MemoryService.retrieve host query profileId limit).run s).1 = .ok results) :
    LiveResults s profileId limit results ↔
      0 ≤ limit ∧ StaleCrowdedOut host s query profileId limit := by
  rw [retrieve_run] at hrun
  obtain ⟨found, hcandidates, rfl⟩ := retrieveIn_eq_ok hrun
  have hdistinct := index_distinct h
  have hids := candidates_distinct hdistinct hcandidates
  have hfound := fun r hr => candidates_stored hcandidates (r := r) hr
  constructor
  · intro hlive
    have hlimit : 0 ≤ limit := le_trans (Int.natCast_nonneg _) hlive.bounded
    exact ⟨hlimit, (staleCrowdedOut_iff hdistinct hlimit hcandidates).mpr
      ((sliced_live_iff hlimit hids hfound).mp hlive)⟩
  · rintro ⟨hlimit, hcrowded⟩
    exact (sliced_live_iff hlimit hids hfound).mpr
      ((staleCrowdedOut_iff hdistinct hlimit hcandidates).mp hcrowded)

/-! ## An expired memory -/

/-- A text search over words, in which every hit scores what a row of two words does that is the only
one of three with the two words asked for. -/
def FtsEngine.plain : FtsEngine :=
  { parses := fun _ => true
    matchesContent := fun query content =>
      (content.toList.splitOnP (· = ' ')).any fun word =>
        (query.toList.splitOnP (· = ' ')).any fun part =>
          part.getLast? = some '*' && part.dropLast.isPrefixOf word
    bm25 := fun _ _ _ => -(5108256237659907 / 5000000000000000) }

/-- A host on which every confidence is one, with a model that finds duplicates everywhere. -/
def MemoryHost.plain : MemoryHost :=
  { Host.plain [] [] with
    fts := FtsEngine.plain
    upper := fun text => String.ofList (text.toList.map Char.toUpper)
    isAlnum := Char.isAlphanum
    mul := fun x _ => x
    sub := fun x _ => x
    judge := fun _ _ => .ok
      { content := "", structuredData := .dict [("resolution", .str "DUPLICATE")] } }

/-- A fact of a profile, already past its date. -/
def pastFact (id content : String) : Memory :=
  { id := id
    profileId := "profile"
    type := .fact
    content := content
    source := "planning"
    provenance := "request"
    createdAt := 0
    expiresAt := some 0 }

/-- Three facts are stored. -/
def threeFacts : MemoryStores :=
  ["green tea", "red car", "old house"].foldl
    (fun s content => ((MemoryService.store (pastFact content content)).run s).2) {}

/-- And expire. -/
def factsExpired : MemoryStores :=
  ((MemoryLifecycleEnforcer.expireMemories MemoryHost.plain).void.run threeFacts).2

/-- INTERNAL: three facts can be remembered. -/
theorem history_threeFacts : History (memoryUsage MemoryHost.plain) {} threeFacts := by
  apply History.returned
  · apply History.returned
    · apply History.returned History.start
      exact MemoryCall.store (pastFact "green tea" "green tea")
    · exact MemoryCall.store (pastFact "red car" "red car")
  · exact MemoryCall.store (pastFact "old house" "old house")

/-- INTERNAL: and two of them can expire. -/
theorem history_factsExpired : History (memoryUsage MemoryHost.plain) {} factsExpired :=
  history_threeFacts.returned MemoryCall.expire

/-- The score of the first fact. -/
def teaScore : Score := scoreOf (5108256237659907 / 5000000000000000)

/-- What is found of the first fact. -/
def teaFound (status : MemoryStatus) : List RetrievalResult :=
  [⟨{ pastFact "green tea" "green tea" with status := status }, teaScore⟩]

/-- INTERNAL: what is found before. -/
theorem retrieve_threeFacts :
    ((MemoryService.retrieve MemoryHost.plain "green tea" "profile" 5).run threeFacts).1 =
      .ok (teaFound .active) := by
  decide +kernel

/-- Memories that have expired are still returned. -/
theorem expired_memory_retrieved :
    ∃ results, History (memoryUsage MemoryHost.plain) {} factsExpired ∧
      ((MemoryService.retrieve MemoryHost.plain "green tea" "profile" 5).run factsExpired).1 =
        .ok results ∧
      ¬ LiveResults factsExpired "profile" 5 results := by
  refine ⟨teaFound .expired, history_factsExpired, by decide +kernel, ?_⟩
  intro hlive
  have hactive := hlive.active _ (List.mem_cons_self ..)
  cases hactive

/-- Three facts that have not been swept yet: all of them are active, so nothing is to be crowded out. -/
theorem fresh_memory_live : StaleCrowdedOut MemoryHost.plain threeFacts "green tea" "profile" 5 ∧
    LiveResults threeFacts "profile" 5 (teaFound .active) := by
  have hactive : ∀ memory ∈ threeFacts.memories, memory.status = .active := by decide +kernel
  have hcrowded : StaleCrowdedOut MemoryHost.plain threeFacts "green tea" "profile" 5 := by
    intro row memory _ hown hstale
    have hstored := (Option.filter_eq_some_iff.mp hown).1
    exact absurd (hactive memory (Table.lookup_mem hstored)) hstale
  exact ⟨hcrowded, (retrieved_live_iff MemoryHost.plain history_threeFacts "green tea" "profile" 5
    retrieve_threeFacts).mpr ⟨by decide, hcrowded⟩⟩

end Shea.Analysis
