import Shea.Computation.Calendar
import Shea.Analysis.MemoryRetrieval

/-!
# Memories that expire

The enforcer compares time stamps as texts. The texts of dates in UTC are in the order of their instants,
whether or not they have microseconds, so just the active memories whose date has come expire.
-/

set_option autoImplicit false

namespace Shea.Analysis

open Shea.Computation Shea.Model

/-- `isoformat` of a date in UTC is its text. -/
def WritesUtc (py : Stdlib) : Prop := ∀ d : UtcDatetime, py.isoformat d.instant = d.isoformat

/-- It is the instant of a date in UTC. -/
def IsUtc (instant : Time) : Prop := ∃ d : UtcDatetime, d.instant = instant

/-- The memory is active, and its date has come. -/
def Due (now : Time) (memory : Memory) : Prop :=
  memory.status = .active ∧ ∃ expiry, memory.expiresAt = some expiry ∧ expiry ≤ now

instance (now : Time) : DecidablePred (Due now) := fun memory =>
  match h : memory.expiresAt with
  | some expiry => decidable_of_iff (memory.status = .active ∧ expiry ≤ now) (by simp [Due, h])
  | none => isFalse (by simp [Due, h])

/-- INTERNAL: the comparison of the texts decides about the instants.
SOURCE: memory/lifecycle/expiration.py:30-36 -/
theorem expires_iff_due {host : MemoryHost} (hpy : WritesUtc host.py) {now : Time} (hnow : IsUtc now)
    {memory : Memory} (hmemory : ∀ expiry, memory.expiresAt = some expiry → IsUtc expiry) :
    MemoryLifecycleEnforcer.expires host now memory = true ↔ Due now memory := by
  unfold MemoryLifecycleEnforcer.expires Due
  rw [Bool.and_eq_true, decide_eq_true_iff]
  refine and_congr_right fun _ => ?_
  cases hexpiry : memory.expiresAt with
  | none => simp
  | some expiry =>
    obtain ⟨d, rfl⟩ := hmemory expiry hexpiry
    obtain ⟨e, rfl⟩ := hnow
    rw [Option.any_some, decide_eq_true_iff, hpy, hpy]
    refine (UtcDatetime.isoformat_le_iff d e).trans ⟨fun hle => ⟨_, rfl, hle⟩, ?_⟩
    rintro ⟨other, hother, hle⟩
    obtain rfl := Option.some.inj hother
    exact hle

/-- `expire_memories` turns just the active memories whose date has come to expired ones, and changes no
other one.
SOURCE: memory/lifecycle/expiration.py:24-39, persistence/sqlite/memory_repository.py:49-51 -/
theorem expireMemories_exact {host : MemoryHost} (hpy : WritesUtc host.py) (s : MemoryStores)
    (hnow : IsUtc (host.clock s.ticks))
    (hmemories : ∀ memory ∈ s.memories, ∀ expiry, memory.expiresAt = some expiry → IsUtc expiry) :
    (MemoryLifecycleEnforcer.expireMemories host).run s =
      (.ok (s.memories.countP (Due (host.clock s.ticks))),
        { s with
          ticks := s.ticks + 1
          memories := s.memories.map fun memory =>
            if Due (host.clock s.ticks) memory then { memory with status := .expired } else memory }) := by
  have hdue : ∀ memory ∈ s.memories,
      MemoryLifecycleEnforcer.expires host (host.clock s.ticks) memory = true ↔
        Due (host.clock s.ticks) memory :=
    fun memory hmemory => expires_iff_due hpy hnow (hmemories memory hmemory)
  have hcount : s.memories.countP (MemoryLifecycleEnforcer.expires host (host.clock s.ticks)) =
      s.memories.countP (Due (host.clock s.ticks)) :=
    List.countP_congr fun memory hmemory => (hdue memory hmemory).trans (decide_eq_true_iff).symm
  have hmap : (s.memories.map fun memory =>
        if MemoryLifecycleEnforcer.expires host (host.clock s.ticks) memory then
          { memory with status := .expired } else memory) =
      s.memories.map fun memory =>
        if Due (host.clock s.ticks) memory then { memory with status := .expired } else memory :=
    List.map_congr_left fun memory hmemory => if_congr (hdue memory hmemory) rfl rfl
  rw [← hcount, ← hmap]
  unfold MemoryLifecycleEnforcer.expireMemories memoryNow
  rw [Program.run_bind, Program.run_act]
  rfl

/-- The beginning of 2026, and so many microseconds later. -/
def newYear (microsecond : ℕ) (h : microsecond < 1000000) : UtcDatetime :=
  { year := 2026
    month := 1
    day := 1
    hour := 0
    minute := 0
    second := 0
    microsecond := microsecond
    year_range := by decide
    month_range := by decide
    day_range := by decide
    hour_lt := by decide
    minute_lt := by decide
    second_lt := by decide
    microsecond_lt := h }

/-- A host that writes dates, one microsecond into the year. -/
def newYearHost : MemoryHost :=
  { MemoryHost.plain with
    py := { Stdlib.plain with isoformat := UtcDatetime.isoOfInstant }
    clock := fun _ => (newYear 1 (by decide)).instant }

/-- A memory that expires at an instant. -/
def expiringAt (expiry : Option Time) (status : MemoryStatus) : Memory :=
  { pastFact "memory" "content" with expiresAt := expiry, status := status }

/-- Two active memories around the present instant, one of them without microseconds, and two others. -/
def newYearStores : MemoryStores :=
  { memories := [expiringAt (some (newYear 0 (by decide)).instant) .active,
      expiringAt (some (newYear 2 (by decide)).instant) .active,
      expiringAt (some (newYear 0 (by decide)).instant) .deleted,
      expiringAt none .active] }

/-- At the new year the memory that is due expires, the others keep their state. -/
theorem newYear_expiry :
    ((MemoryLifecycleEnforcer.expireMemories newYearHost).run newYearStores).2.memories.map Memory.status =
      [.expired, .active, .deleted, .active] := by
  have hmemories : ∀ memory ∈ newYearStores.memories, ∀ expiry, memory.expiresAt = some expiry →
      IsUtc expiry := by
    intro memory hmemory expiry hexpiry
    simp only [newYearStores, List.mem_cons, List.not_mem_nil, or_false] at hmemory
    rcases hmemory with rfl | rfl | rfl | rfl
    · exact ⟨_, Option.some.inj hexpiry⟩
    · exact ⟨_, Option.some.inj hexpiry⟩
    · exact ⟨_, Option.some.inj hexpiry⟩
    · cases hexpiry
  have hwrites : WritesUtc newYearHost.py := UtcDatetime.isoOfInstant_instant
  rw [expireMemories_exact hwrites newYearStores ⟨_, rfl⟩ hmemories]
  decide

end Shea.Analysis
