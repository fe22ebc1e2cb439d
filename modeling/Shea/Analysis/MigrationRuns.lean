import Shea.Computation.Faults
import Shea.Model.Migrations

/-!
# What an interrupted migration leaves

A script is not run in a transaction: `executescript` commits what is pending and then every statement
by itself, unless the script opens a transaction of its own. A script that fails or is stopped in its
midst therefore leaves what its statements have committed so far; the rollback undoes the rest. The
database is that of the scripts before it exactly when these commits come to nothing.
-/

set_option autoImplicit false

namespace Shea.Analysis

open Shea.Computation Shea.Model
open Shea.Model.Migrator

variable {γ : Type}

/-! ## Runs that go through, and interrupted ones -/

/-- What may be done to a connection. -/
abbrev Action (γ : Type) := Connection γ → Except Err Unit × Connection γ

/-- Actions, one after the other, up to the first that fails. -/
def performEach : List (Action γ) → Connection γ → Except Err Unit × Connection γ
  | [], c => (.ok (), c)
  | action :: rest, c =>
    match action c with
    | (.ok _, next) => performEach rest next
    | (.error e, next) => (.error e, next)

/-- A database with its table of versions. -/
abbrev ensured (db : Database γ) : Database γ := createTable db

/-- The statements of a script and the row of its version. -/
def scriptActions (script : Script γ) : List (Action γ) :=
  ((fun c => (.ok (), c.commit)) :: script.statements.map Statement.execute) ++
    [fun c => (.ok (), c.opened), insertVersion script.stem]

/-- What a script makes of a database when everything goes through. -/
def applied (db : Database γ) (script : Script γ) : Option (Database γ) :=
  match performEach (scriptActions script) { committed := db } with
  | (.ok _, c) => some c.working
  | (.error _, _) => none

/-- What scripts make of a database, each of them completely. -/
def appliedAll : List (Script γ) → Database γ → Option (Database γ)
  | [], db => some db
  | script :: rest, db => (applied db script).bind (appliedAll rest)

/-- What statements commit, executed one by one on a connection without a transaction. -/
def ownCommits (db : Database γ) (statements : List (Statement γ)) : Database γ :=
  (performEach (statements.map Statement.execute) { committed := db }).2.committed

/-- The scripts that are not recorded yet, in the order of their names. -/
def pendingScripts (files : List (Script γ)) (db : Database γ) : List (Script γ) :=
  (sortedFiles files).filter fun script => script.stem ∉ db.versions.getD []

/-- What ends a run before its end: the process stops, or a step fails that otherwise would not, without
effect. What a statement makes of the rows when it fails by itself is part of the statement. -/
inductive Interruption
  | stop
  | failure (error : Err)

/-- The state that a run leaves which is interrupted after some steps. -/
def leftBy (interruption : Interruption) (steps : ℕ) (files : List (Script γ)) (db : Database γ) :
    MigrationState γ :=
  match interruption with
  | .stop => (runMigrations files).cut steps { connection := { committed := db } }
  | .failure e => ((runMigrations files).faulty (fun _ _ => true) (Program.only steps e) 0
      { connection := { committed := db } }).2

/-- The database is that of the scripts which the run has completed, applied completely (where a
missing table of versions counts as an empty one). -/
def PrefixApplied (files : List (Script γ)) (db : Database γ) (s : MigrationState γ) : Prop :=
  ∃ front back, pendingScripts files db = front ++ back ∧
    s.newlyApplied = front.map Script.stem ∧
    appliedAll front (ensured db) = some (ensured s.connection.committed)

/-- How far a run has come after some steps: the database of the scripts that are through, and the
statements of the next one that have been executed. A script takes four steps besides its statements. -/
def progress (db : Database γ) : List (Script γ) → ℕ → Database γ × List (Statement γ)
  | [], _ => (db, [])
  | script :: rest, steps =>
    if steps < script.statements.length + 4 then (db, script.statements.take (steps - 1))
    else match applied db script with
      | some next => progress next rest (steps - (script.statements.length + 4))
      | none => (db, script.statements)

/-- What the interrupted script has committed by itself changes nothing. The table of versions takes
the first five steps. -/
def NothingCommitted (files : List (Script γ)) (db : Database γ) (steps : ℕ) : Prop :=
  let position := progress (ensured db) (pendingScripts files db) (steps - 5)
  ensured (ownCommits position.1 position.2) = position.1

/-! ## Scripts, one and all -/

section OneScript

variable {s : MigrationState γ} {db : Database γ} {script : Script γ}

/-- INTERNAL: the first action, and the rest if it goes through. -/
theorem performEach_cons (action : Action γ) (rest : List (Action γ)) (c : Connection γ) :
    performEach (action :: rest) c =
      match action c with
      | (.ok _, next) => performEach rest next
      | (.error e, next) => (.error e, next) := rfl

/-- INTERNAL: one list of actions after the other. -/
theorem performEach_append (first second : List (Action γ)) (c : Connection γ) :
    performEach (first ++ second) c =
      match performEach first c with
      | (.ok _, next) => performEach second next
      | (.error e, next) => (.error e, next) := by
  induction first generalizing c with
  | nil => rfl
  | cons action rest ih =>
    rw [List.cons_append, performEach_cons, performEach_cons]
    rcases action c with ⟨_ | _, next⟩
    · rfl
    · exact ih next

/-- The actions of a script, as steps of a run. -/
def performList : List (Action γ) → MigrationProc γ Unit
  | [] => pure ()
  | action :: rest => do
    perform action
    performList rest

/-- INTERNAL: the program of a list of actions. -/
theorem performList_cons (action : Action γ) (rest : List (Action γ)) :
    performList (action :: rest) = (do perform action; performList rest) := rfl

/-- INTERNAL: one program of actions after the other. -/
theorem performList_append (first second : List (Action γ)) :
    performList (first ++ second) = (do performList first; performList second) := by
  induction first with
  | nil => rfl
  | cons action rest ih =>
    rw [List.cons_append, performList_cons, performList_cons, ih, bind_assoc]

/-- INTERNAL: an action that always goes through. -/
theorem perform_ok (f : Connection γ → Connection γ) :
    perform (fun c => (.ok (), f c)) =
      Program.modify fun s : MigrationState γ => { s with connection := f s.connection } := rfl

/-- INTERNAL: an action, run undisturbed. -/
theorem perform_run (action : Action γ) :
    (perform action).run s =
      ((action s.connection).1, { s with connection := (action s.connection).2 }) := by
  unfold perform
  simp only [Program.run_bind, Program.run_act, Program.run_ofExcept]

/-- INTERNAL: an action is one step. -/
theorem perform_steps (action : Action γ) : (perform action).steps s = 1 := by
  unfold perform
  rw [Program.steps_bind]
  simp only [Program.run_act]
  cases (action s.connection).1 with
  | ok _ => rfl
  | error e => rfl

/-- INTERNAL: a list of actions, run undisturbed. -/
theorem performList_run (actions : List (Action γ)) (s : MigrationState γ) :
    (performList actions).run s = ((performEach actions s.connection).1,
      { s with connection := (performEach actions s.connection).2 }) := by
  induction actions generalizing s with
  | nil => rfl
  | cons action rest ih =>
    unfold performList performEach
    rw [Program.run_bind, perform_run]
    rcases action s.connection with ⟨_ | _, c⟩
    · rfl
    · exact ih _

/-- INTERNAL: and stopped: the actions so far have been done. -/
theorem performList_cut (actions : List (Action γ)) (s : MigrationState γ) (n : ℕ) :
    (performList actions).cut n s =
      { s with connection := (performEach (actions.take n) s.connection).2 } := by
  induction actions generalizing n s with
  | nil => cases n <;> rfl
  | cons action rest ih =>
    cases n with
    | zero => rfl
    | succ n =>
      have hrun := perform_run (s := s) action
      have hsteps := perform_steps (s := s) action
      rw [List.take_succ_cons]
      unfold performList performEach
      rcases haction : action s.connection with ⟨_ | _, c⟩
      · rw [haction] at hrun
        rw [Program.cut_bind_of_error hrun, Program.cut_of_steps_le _ (by omega), hrun]
      · rw [haction] at hrun
        rw [Program.cut_bind_of_ok hrun (by omega), hsteps, Nat.add_sub_cancel]
        exact ih _ n

/-- INTERNAL: each action is one step. -/
theorem performList_steps (actions : List (Action γ)) (s : MigrationState γ)
    (h : (performEach actions s.connection).1 = .ok ()) :
    (performList actions).steps s = actions.length := by
  induction actions generalizing s with
  | nil => rfl
  | cons action rest ih =>
    unfold performList
    unfold performEach at h
    rw [Program.steps_bind, perform_steps, perform_run]
    rcases haction : action s.connection with ⟨_ | _, c⟩
    · rw [haction] at h
      cases h
    · rw [haction] at h
      have hrest := ih { s with connection := c } h
      simp only [hrest, List.length_cons]
      omega

/-- INTERNAL: a migration is the actions of its script and the commit, under a handler.
SOURCE: persistence/sqlite/migrator.py:45-56 -/
theorem applyMigration_eq (script : Script γ) :
    applyMigration script =
      tryCatch (do
        performList (scriptActions script)
        Program.modify fun s => { connection := s.connection.commit,
                                  newlyApplied := s.newlyApplied ++ [script.stem] })
        (fun e => do
          Program.modify fun s => { s with connection := s.connection.rollback }
          throw e) := by
  have hall : ∀ statements : List (Statement γ),
      performAll statements = performList (statements.map Statement.execute) := by
    intro statements
    induction statements with
    | nil => rfl
    | cons statement rest ih =>
      unfold performAll
      rw [ih]
      rfl
  have hbody : performList (scriptActions script) = (do
      executescript script.statements
      Program.modify fun s => { s with connection := s.connection.opened }
      perform (insertVersion script.stem)) := by
    have hlast : performList [(insertVersion script.stem : Action γ)] =
        perform (insertVersion script.stem) := bind_pure_unit
    unfold scriptActions executescript
    rw [performList_append, hall, performList_cons, performList_cons, hlast, perform_ok, perform_ok,
      bind_assoc]
  unfold applyMigration
  rw [hbody, bind_assoc]
  rfl

/-- INTERNAL: opening a transaction and inserting a row into it commits nothing. -/
theorem recording_commits_nothing (c : Connection γ) (n : ℕ) :
    (performEach (([fun c => (.ok (), c.opened), insertVersion script.stem] : List (Action γ)).take n)
      c).2.committed = c.committed := by
  have hopened : c.opened.committed = c.committed := by
    unfold Connection.opened
    split
    · rfl
    · rfl
  have hinserted : (insertVersion script.stem c.opened).2.committed = c.committed := by
    unfold insertVersion
    split
    · exact hopened
    · split
      · exact hopened
      · rw [← hopened]
        unfold Connection.write
        split
        · next hnone =>
          unfold Connection.opened at hnone
          split at hnone
          · cases hnone
          · next hsome => exact absurd hnone (by simp [hsome])
        · rfl
  match n with
  | 0 => rfl
  | 1 => exact hopened
  | n + 2 =>
    have hall : ([fun c => (.ok (), c.opened), insertVersion script.stem] : List (Action γ)).take (n + 2) =
        [fun c => (.ok (), c.opened), insertVersion script.stem] := List.take_of_length_le (by simp)
    rw [hall, performEach_cons]
    simp only
    rw [performEach_cons]
    rcases hinsert : insertVersion script.stem c.opened with ⟨_ | _, next⟩
    · rw [hinsert] at hinserted
      exact hinserted
    · rw [hinsert] at hinserted
      exact hinserted

/-- INTERNAL: what has been committed when only some actions of a script have been taken. -/
theorem committed_of_actions (n : ℕ) :
    (performEach ((scriptActions script).take n) { committed := db }).2.committed =
      ownCommits db (script.statements.take (n - 1)) := by
  cases n with
  | zero => rfl
  | succ n =>
    unfold scriptActions ownCommits
    rw [List.cons_append, List.take_succ_cons, performEach_cons, Nat.add_sub_cancel,
      List.take_append, List.map_take]
    show (performEach (_ ++ _) { committed := db }).2.committed = _
    rw [performEach_append]
    rcases performEach ((script.statements.map Statement.execute).take n) { committed := db } with
      ⟨r, next⟩
    cases r with
    | ok _ => exact recording_commits_nothing next _
    | error e => rfl

/-- What a reader of the run sees: what is committed, and what has been applied. -/
def durable (s : MigrationState γ) : Database γ × List String :=
  (s.connection.committed, s.newlyApplied)

/-- INTERNAL: the rollback changes nothing that is durable. -/
theorem rollback_keeps (e : Err) :
    (do
      Program.modify fun s : MigrationState γ => { s with connection := s.connection.rollback }
      throw e : MigrationProc γ Unit).Guarantee fun a b => durable b = durable a := by
  apply Program.guarantee_bind
  · exact Program.guarantee_modify fun s => rfl
  · intro _
    trivial

/-- INTERNAL: a script that goes through.
SOURCE: persistence/sqlite/migrator.py:45-57 -/
theorem applyMigration_of_applied {next : Database γ} (h : applied db script = some next)
    (hs : s.connection = { committed := db }) :
    (applyMigration script).run s = (.ok (),
        { connection := { committed := next }, newlyApplied := s.newlyApplied ++ [script.stem] }) ∧
      (applyMigration script).steps s = script.statements.length + 4 := by
  have hperform : ∃ c, performEach (scriptActions script) s.connection = (.ok (), c) ∧
      c.working = next := by
    unfold applied at h
    rw [hs]
    rcases hactions : performEach (scriptActions script) { committed := db } with ⟨r, c⟩
    rw [hactions] at h
    cases r with
    | ok _ => exact ⟨c, rfl, Option.some.inj h⟩
    | error e => cases h
  obtain ⟨c, hactions, rfl⟩ := hperform
  have hlist := performList_run (scriptActions script) s
  have hsteps := performList_steps (scriptActions script) s (by rw [hactions])
  rw [hactions] at hlist
  have hlength : (scriptActions script).length = script.statements.length + 3 := by
    simp [scriptActions]
  have hbody : (do
      performList (scriptActions script)
      Program.modify fun s : MigrationState γ =>
        { connection := s.connection.commit,
          newlyApplied := s.newlyApplied ++ [script.stem] }).run s =
      (.ok (), { connection := c.commit, newlyApplied := s.newlyApplied ++ [script.stem] }) := by
    rw [Program.run_bind, hlist]
    rfl
  rw [applyMigration_eq, Program.run_tryCatch, hbody, Program.steps_tryCatch_of_ok hbody,
    Program.steps_bind, hlist, hsteps, hlength]
  exact ⟨rfl, rfl⟩

/-- INTERNAL: a script that is still under way, or fails.
SOURCE: persistence/sqlite/migrator.py:45-56 -/
theorem applyMigration_cut (hs : s.connection = { committed := db }) (n : ℕ)
    (h : n < script.statements.length + 4 ∨ applied db script = none) :
    durable ((applyMigration script).cut n s) =
      (ownCommits db (script.statements.take (n - 1)), s.newlyApplied) := by
  rw [applyMigration_eq, Program.cut_tryCatch_view rollback_keeps]
  have hlist := performList_run (scriptActions script) s
  have hcut := performList_cut (scriptActions script) s n
  have hgoal : durable ((performList (scriptActions script)).cut n s) =
      (ownCommits db (script.statements.take (n - 1)), s.newlyApplied) := by
    rw [hcut, hs]
    unfold durable
    rw [committed_of_actions]
  rcases hactions : performEach (scriptActions script) s.connection with ⟨r, c⟩
  rw [hactions] at hlist
  cases r with
  | ok _ =>
    have hsteps := performList_steps (scriptActions script) s (by rw [hactions])
    have hlength : (scriptActions script).length = script.statements.length + 3 := by
      simp [scriptActions]
    have happlied : applied db script = some c.working := by
      unfold applied
      rw [← hs, hactions]
    have hn : n < script.statements.length + 4 := h.resolve_right (by simp [happlied])
    rw [Program.cut_bind_of_le _ _ (by omega)]
    exact hgoal
  | error e =>
    rw [Program.cut_bind_of_error hlist]
    exact hgoal

/-- INTERNAL: a script that does not go through raises.
SOURCE: persistence/sqlite/migrator.py:53-55 -/
theorem applyMigration_of_not_applied (h : applied db script = none)
    (hs : s.connection = { committed := db }) :
    ∃ e t, (applyMigration script).run s = (.error e, t) := by
  have hlist := performList_run (scriptActions script) s
  rcases hactions : performEach (scriptActions script) s.connection with ⟨r, c⟩
  rw [hactions] at hlist
  cases r with
  | ok _ =>
    unfold applied at h
    rw [← hs, hactions] at h
    cases h
  | error e =>
    rw [applyMigration_eq, Program.run_tryCatch, Program.run_bind, hlist]
    exact ⟨e, _, rfl⟩

/-- INTERNAL: whatever is to come after a script, nothing of it has been seen yet. -/
theorem applyMigration_bind_cut (rest : MigrationProc γ Unit)
    (hs : s.connection = { committed := db }) (n : ℕ)
    (h : n < script.statements.length + 4 ∨ applied db script = none) :
    durable ((do applyMigration script; rest).cut n s) =
      (ownCommits db (script.statements.take (n - 1)), s.newlyApplied) := by
  rw [← applyMigration_cut hs n h]
  cases happlied : applied db script with
  | none =>
    obtain ⟨e, t, hrun⟩ := applyMigration_of_not_applied happlied hs
    rw [Program.cut_bind_of_error hrun]
  | some next =>
    have hsteps := (applyMigration_of_applied happlied hs).2
    have hn := h.resolve_right (by simp [happlied])
    rw [Program.cut_bind_of_le _ _ (by omega)]

end OneScript

section AllScripts

variable {files : List (Script γ)} {db : Database γ}

/-- INTERNAL: the first script, unless it was applied, and the rest. -/
theorem migrateAll_cons (already : List String) (script : Script γ) (rest : List (Script γ)) :
    migrateAll already (script :: rest) =
      if script.stem ∈ already then migrateAll already rest
      else (do applyMigration script; migrateAll already rest) := by
  conv_lhs => unfold migrateAll

/-- INTERNAL: the loop skips what has been applied already.
SOURCE: persistence/sqlite/migrator.py:41-44 -/
theorem migrateAll_eq (already : List String) (files : List (Script γ)) :
    migrateAll already files =
      migrateAll [] (files.filter fun script => script.stem ∉ already) := by
  induction files with
  | nil => rfl
  | cons script rest ih =>
    rw [migrateAll_cons]
    by_cases hin : script.stem ∈ already
    · rw [List.filter_cons_of_neg (by simpa using hin), if_pos hin]
      exact ih
    · rw [List.filter_cons_of_pos (by simpa using hin), if_neg hin, migrateAll_cons,
        if_neg List.not_mem_nil, ih]

/-- INTERNAL: the loop after some steps: the scripts that are through, completely, and what the next
one has committed by itself. -/
theorem migrateAll_cut (pending : List (Script γ)) (db : Database γ) (earlier : List String) (n : ℕ) :
    ∃ front back, pending = front ++ back ∧
      durable ((migrateAll [] pending).cut n
          { connection := { committed := db }, newlyApplied := earlier }) =
        (ownCommits (progress db pending n).1 (progress db pending n).2,
          earlier ++ front.map Script.stem) ∧
      appliedAll front db = some (progress db pending n).1 := by
  induction pending generalizing db earlier n with
  | nil =>
    refine ⟨[], [], rfl, ?_, rfl⟩
    cases n <;> simp [migrateAll, durable, ownCommits, progress, performEach, Program.cut,
      Program.pure_eq]
  | cons script rest ih =>
    rw [migrateAll_cons, if_neg List.not_mem_nil]
    by_cases hn : n < script.statements.length + 4
    · have hprogress : progress db (script :: rest) n = (db, script.statements.take (n - 1)) :=
        if_pos hn
      refine ⟨[], script :: rest, rfl, ?_, ?_⟩
      · rw [applyMigration_bind_cut _ rfl n (.inl hn), hprogress]
        simp
      · rw [hprogress]
        rfl
    · cases happlied : applied db script with
      | none =>
        have hprogress : progress db (script :: rest) n = (db, script.statements) := by
          unfold progress
          rw [if_neg hn, happlied]
        have hall : script.statements.take (n - 1) = script.statements :=
          List.take_of_length_le (by omega)
        refine ⟨[], script :: rest, rfl, ?_, ?_⟩
        · rw [applyMigration_bind_cut _ rfl n (.inr happlied), hprogress, hall]
          simp
        · rw [hprogress]
          rfl
      | some next =>
        have hprogress : progress db (script :: rest) n =
            progress next rest (n - (script.statements.length + 4)) := by
          conv_lhs => unfold progress
          rw [if_neg hn, happlied]
        obtain ⟨hrun, hsteps⟩ := applyMigration_of_applied (s :=
          { connection := { committed := db }, newlyApplied := earlier }) happlied rfl
        obtain ⟨front, back, hsplit, hdurable, hfront⟩ :=
          ih next (earlier ++ [script.stem]) (n - (script.statements.length + 4))
        refine ⟨script :: front, back, by rw [hsplit]; rfl, ?_, ?_⟩
        · rw [Program.cut_bind_of_ok hrun (by omega), hsteps, hdurable, hprogress, List.append_assoc]
          rfl
        · unfold appliedAll
          rw [happlied, hprogress]
          exact hfront

/-- INTERNAL: reading the result at the end changes nothing. -/
theorem cut_then_get (p : MigrationProc γ Unit) (n : ℕ) (s : MigrationState γ) :
    (do p; Program.get MigrationState.newlyApplied : MigrationProc γ (List String)).cut n s =
      p.cut n s := by
  rcases hrun : p.run s with ⟨r, t⟩
  cases r with
  | error e => exact Program.cut_bind_of_error hrun n
  | ok _ =>
    by_cases hn : n ≤ p.steps s
    · exact Program.cut_bind_of_le p _ hn
    · rw [Program.cut_bind_of_ok hrun (by omega), Program.cut_of_steps_le p (by omega), hrun]
      obtain ⟨k, hk⟩ := Nat.exists_eq_add_of_lt (Nat.lt_of_not_le hn)
      have hrest : n - p.steps s = k + 1 := by omega
      rw [hrest]
      cases k <;> rfl

/-- INTERNAL: the first five steps make the table of versions and read it; the rest is the loop.
SOURCE: persistence/sqlite/migrator.py:9-44 -/
theorem runMigrations_cut (files : List (Script γ)) (db : Database γ) (n : ℕ) :
    (runMigrations files).cut (n + 5) { connection := { committed := db } } =
      (migrateAll [] (pendingScripts files db)).cut n { connection := { committed := ensured db } } :=
    by
  have hpending : migrateAll [] (pendingScripts files db) =
      migrateAll (db.versions.getD []) (sortedFiles files) := (migrateAll_eq _ _).symm
  rw [hpending, ← cut_then_get]
  rfl

/-- INTERNAL: before the first script only the table of versions is made. -/
theorem runMigrations_cut_early (files : List (Script γ)) (db : Database γ) {n : ℕ} (hn : n < 5) :
    ((runMigrations files).cut n { connection := { committed := db } }).newlyApplied = [] ∧
      ensured ((runMigrations files).cut n
        { connection := { committed := db } }).connection.committed = ensured db := by
  match n, hn with
  | 0, _ => exact ⟨rfl, rfl⟩
  | 1, _ => exact ⟨rfl, rfl⟩
  | 2, _ => exact ⟨rfl, rfl⟩
  | 3, _ => exact ⟨rfl, rfl⟩
  | 4, _ => exact ⟨rfl, rfl⟩

/-- INTERNAL: at the beginning nothing is done. -/
theorem progress_zero (db : Database γ) (pending : List (Script γ)) :
    progress db pending 0 = (db, []) := by
  cases pending with
  | nil => rfl
  | cons script rest =>
    unfold progress
    rw [if_pos (Nat.succ_pos _)]
    rfl

/-- INTERNAL: where a run stands after some steps. -/
theorem stopped_cut (files : List (Script γ)) (db : Database γ) (n : ℕ) :
    ∃ front back, pendingScripts files db = front ++ back ∧
      (leftBy .stop n files db).newlyApplied = front.map Script.stem ∧
      appliedAll front (ensured db) =
        some (progress (ensured db) (pendingScripts files db) (n - 5)).1 ∧
      ensured (leftBy .stop n files db).connection.committed =
        ensured (ownCommits (progress (ensured db) (pendingScripts files db) (n - 5)).1
          (progress (ensured db) (pendingScripts files db) (n - 5)).2) := by
  by_cases hn : n < 5
  · have hzero : n - 5 = 0 := by omega
    obtain ⟨hnewly, hcommitted⟩ := runMigrations_cut_early files db hn
    rw [hzero, progress_zero]
    exact ⟨[], pendingScripts files db, rfl, hnewly, rfl, hcommitted⟩
  · obtain ⟨k, rfl⟩ := Nat.exists_eq_add_of_le (Nat.le_of_not_lt hn)
    obtain ⟨front, back, hsplit, hdurable, hfront⟩ :=
      migrateAll_cut (pendingScripts files db) (ensured db) [] k
    have hleft := runMigrations_cut files db k
    obtain ⟨hcommitted, hnewly⟩ := Prod.mk.inj hdurable
    rw [Nat.add_sub_cancel_left]
    unfold leftBy
    rw [Nat.add_comm, hleft]
    refine ⟨front, back, hsplit, hnewly, hfront, ?_⟩
    exact congrArg ensured hcommitted

end AllScripts

/-! ## Failures and reruns -/

section Failures

/-- Every step may fail, for reasons of its own. -/
abbrev anyStep (_ _ : MigrationState γ) : Bool := true

/-- A program that leaves no trace of the step that failed, and raises. -/
def Recoils {α : Type} (p : MigrationProc γ α) : Prop :=
  p.Strict ∧ ∀ s, p.Backs anyStep durable s

/-- INTERNAL: one program after the other. -/
theorem Recoils.bind {α β : Type} {p : MigrationProc γ α} {f : α → MigrationProc γ β}
    (hp : Recoils p) (hf : ∀ a, Recoils (f a)) : Recoils (p >>= f) := by
  constructor
  · apply Program.strict_bind hp.1
    intro a
    exact (hf a).1
  · intro s
    apply Program.backs_bind hp.1 (hp.2 s)
    intro a t _
    exact (hf a).2 t

/-- INTERNAL: a value that is returned. -/
theorem recoils_pure {α : Type} (value : α) : Recoils (pure value : MigrationProc γ α) :=
  ⟨trivial, fun _ => trivial⟩

/-- INTERNAL: an update. -/
theorem recoils_modify (update : MigrationState γ → MigrationState γ) :
    Recoils (Program.modify update : MigrationProc γ Unit) :=
  ⟨Program.strict_modify update, fun _ => Program.backs_modify⟩

/-- INTERNAL: a look at the state. -/
theorem recoils_get {α : Type} (view : MigrationState γ → α) :
    Recoils (Program.get view : MigrationProc γ α) :=
  ⟨Program.strict_get view, fun _ => Program.backs_get⟩

/-- INTERNAL: an action. -/
theorem recoils_perform (action : Action γ) : Recoils (perform action) := by
  apply Recoils.bind ⟨Program.strict_act _ _, fun _ => Program.backs_act⟩
  intro result
  cases result with
  | ok c => exact recoils_pure ()
  | error e => exact ⟨trivial, fun _ => trivial⟩

/-- INTERNAL: a list of actions. -/
theorem recoils_performList (actions : List (Action γ)) : Recoils (performList actions) := by
  induction actions with
  | nil => exact recoils_pure ()
  | cons action rest ih =>
    apply Recoils.bind (recoils_perform action)
    intro _
    exact ih

/-- INTERNAL: one script. -/
theorem recoils_applyMigration (script : Script γ) : Recoils (applyMigration script) := by
  have hbody := (recoils_performList (scriptActions script)).bind fun _ =>
    recoils_modify fun s =>
      { connection := s.connection.commit, newlyApplied := s.newlyApplied ++ [script.stem] }
  rw [applyMigration_eq]
  constructor
  · apply Program.strict_tryCatch hbody.1
    · intro e
      exact ⟨fun _ => trivial, fun _ => trivial⟩
    · intro e
      exact ⟨fun _ => trivial, fun _ => trivial⟩
  · intro s
    apply Program.backs_tryCatch (hbody.2 s)
    · intro e t
      rfl
    · intro e t
      exact ⟨fun _ _ => rfl, trivial⟩

/-- INTERNAL: all scripts. -/
theorem recoils_migrateAll (already : List String) (files : List (Script γ)) :
    Recoils (migrateAll already files) := by
  induction files with
  | nil => exact recoils_pure ()
  | cons script rest ih =>
    rw [migrateAll_cons]
    split
    · exact ih
    · exact (recoils_applyMigration script).bind fun _ => ih

/-- INTERNAL: the migrator. -/
theorem recoils_runMigrations (files : List (Script γ)) : Recoils (runMigrations files) := by
  have hensure : Recoils (ensureMigrationsTable : MigrationProc γ Unit) :=
    (recoils_perform _).bind fun _ => recoils_modify _
  apply hensure.bind
  intro _
  apply Recoils.bind
  · exact hensure.bind fun _ => recoils_get _
  · intro already
    exact (recoils_migrateAll already _).bind fun _ => recoils_get _

/-- INTERNAL: a failing statement leaves what a stop before it leaves.
SOURCE: persistence/sqlite/migrator.py:53-55 -/
theorem failure_leaves_stop (e : Err) (n : ℕ) (files : List (Script γ)) (db : Database γ) :
    durable (leftBy (.failure e) n files db) = durable (leftBy .stop n files db) := by
  unfold leftBy
  have hbacks := (recoils_runMigrations files).2 { connection := { committed := db } }
  by_cases hn : n < (runMigrations files).steps { connection := { committed := db } }
  · have hsame := hbacks.faulty_only (i := 0) e hn rfl
    rwa [Nat.zero_add] at hsame
  · have hsame : (runMigrations files).faulty anyStep (Program.only (0 + n) e) 0
        { connection := { committed := db } } = _ :=
      Program.faulty_only_of_not e fun h => absurd h hn
    rw [Nat.zero_add] at hsame
    simp only
    rw [hsame, Program.cut_of_steps_le _ (Nat.le_of_not_lt hn)]

end Failures

section Resuming

variable {files : List (Script γ)} {db next : Database γ} {script : Script γ}
  {versions : Option (List String)} {c c' : Connection γ}

/-- A statement that does not touch the table of versions. -/
def LeavesVersions : Statement γ → Prop
  | .sql apply => ∀ inTransaction db next, apply inTransaction db = .done next →
      next.versions = db.versions
  | _ => True

/-- All that a connection may come back to has the same versions. -/
structure SameVersions (versions : Option (List String)) (c : Connection γ) : Prop where
  committed : c.committed.versions = versions
  working : ∀ t, c.transaction = some t → t.working.versions = versions
  saved : ∀ t, c.transaction = some t → ∀ point ∈ t.savepoints, point.2.versions = versions

/-- INTERNAL: a new connection sees the versions that are committed. -/
theorem SameVersions.fresh (h : db.versions = versions) :
    SameVersions versions { committed := db } :=
  ⟨h, by simp, by simp⟩

/-- INTERNAL: these are the versions the connection sees. -/
theorem SameVersions.of_working (h : SameVersions versions c) : c.working.versions = versions := by
  unfold Connection.working
  cases htransaction : c.transaction with
  | none => exact h.committed
  | some t => exact h.working t htransaction

/-- A transaction with other parts. -/
theorem SameVersions.within {t : Transaction γ} (h : SameVersions versions c)
    (hworking : t.working.versions = versions)
    (hsaved : ∀ point ∈ t.savepoints, point.2.versions = versions) :
    SameVersions versions { c with transaction := some t } :=
  ⟨h.committed, fun _ ht => by cases ht; exact hworking, fun _ ht => by cases ht; exact hsaved⟩

/-- INTERNAL: a write that leaves the versions alone. -/
theorem SameVersions.write (h : SameVersions versions c) (hdb : db.versions = versions) :
    SameVersions versions (c.write db) := by
  unfold Connection.write
  split
  · exact .fresh hdb
  · next t ht => exact h.within hdb (h.saved t ht)

/-- INTERNAL: a transaction that is opened. -/
theorem SameVersions.opened (h : SameVersions versions c) : SameVersions versions c.opened := by
  unfold Connection.opened
  split
  · exact h.within h.committed (by simp)
  · exact h

/-- INTERNAL: statements that do not touch the table of versions keep it. -/
theorem execute_keeps {statement : Statement γ} (hleaves : LeavesVersions statement)
    (h : SameVersions versions c) (hrun : statement.execute c = (.ok (), c')) :
    SameVersions versions c' := by
  have hpoints : ∀ {t : Transaction γ} {name : String} {found : String × Database γ}
      {older : List (String × Database γ)}, c.transaction = some t →
      t.savepoints.dropWhile (·.1 ≠ name) = found :: older →
      found.2.versions = versions ∧ ∀ point ∈ older, point.2.versions = versions := by
    intro t name found older ht hdrop
    have hin : ∀ point ∈ found :: older, point ∈ t.savepoints := by
      intro point hpoint
      rw [← hdrop] at hpoint
      exact (List.dropWhile_sublist _).subset hpoint
    constructor
    · exact h.saved t ht found (hin found (List.mem_cons_self ..))
    · intro point hpoint
      exact h.saved t ht point (hin point (List.mem_cons_of_mem _ hpoint))
  unfold Statement.execute at hrun
  cases statement with
  | sql apply =>
    simp only at hrun
    cases happly : apply c.transaction.isSome c.working with
    | failed e next | rolledBack e =>
      rw [happly] at hrun
      cases hrun
    | done next =>
      rw [happly] at hrun
      cases hrun
      apply h.write
      rw [hleaves _ _ _ happly]
      exact h.of_working
  | begin =>
    simp only at hrun
    split at hrun
    · cases hrun
    · cases hrun
      exact h.opened
  | commit =>
    simp only at hrun
    split at hrun
    · cases hrun
      exact .fresh h.of_working
    · cases hrun
  | rollback =>
    simp only at hrun
    split at hrun
    · cases hrun
      exact .fresh h.committed
    · cases hrun
  | savepoint name =>
    simp only at hrun
    split at hrun
    · cases hrun
      exact h.within h.committed (by simp [h.committed])
    · next t ht =>
      cases hrun
      refine h.within (h.working t ht) ?_
      intro point hpoint
      rcases List.mem_cons.mp hpoint with rfl | hpoint
      · exact h.working t ht
      · exact h.saved t ht point hpoint
  | release name =>
    simp only at hrun
    split at hrun
    · cases hrun
    · next t ht =>
      split at hrun
      · cases hrun
      · next found older hdrop =>
        split at hrun
        · cases hrun
          exact .fresh h.of_working
        · cases hrun
          exact h.within (h.working t ht) (hpoints ht hdrop).2
  | rollbackTo name =>
    simp only at hrun
    split at hrun
    · cases hrun
    · next t ht =>
      split at hrun
      · cases hrun
      · next found older hdrop =>
        cases hrun
        obtain ⟨hfound, holder⟩ := hpoints ht hdrop
        apply h.within hfound
        intro point hpoint
        rcases List.mem_cons.mp hpoint with rfl | hpoint
        · exact hfound
        · exact holder point hpoint

/-- INTERNAL: statements that leave the versions alone. -/
theorem executeAll_keeps {statements : List (Statement γ)}
    (hleaves : ∀ statement ∈ statements, LeavesVersions statement) (h : SameVersions versions c)
    (hrun : performEach (statements.map Statement.execute) c = (.ok (), c')) :
    SameVersions versions c' := by
  induction statements generalizing c with
  | nil =>
    obtain ⟨-, rfl⟩ := Prod.mk.inj hrun
    exact h
  | cons statement rest ih =>
    rw [List.map_cons, performEach_cons] at hrun
    rcases hfirst : statement.execute c with ⟨_ | _, next⟩
    · rw [hfirst] at hrun
      cases hrun
    · rw [hfirst] at hrun
      refine ih (fun other hother => hleaves other (List.mem_cons_of_mem _ hother)) ?_ hrun
      exact execute_keeps (hleaves statement (List.mem_cons_self ..)) h hfirst

/-- INTERNAL: what is written is seen. -/
theorem working_write (c : Connection γ) (db : Database γ) : (c.write db).working = db := by
  unfold Connection.write
  split
  · rfl
  · rfl

/-- INTERNAL: a version is added at the end. -/
theorem insertVersion_ok {version : String} (h : insertVersion version c = (.ok (), c')) :
    c'.working.versions = some (c.working.versions.getD [] ++ [version]) := by
  unfold insertVersion at h
  split at h
  · cases h
  · next versions hversions =>
    split at h
    · cases h
    · cases h
      rw [working_write, hversions]
      rfl

/-- INTERNAL: a script that goes through: its statements, the row of its version, and the commit. -/
theorem applied_eq_some (h : applied db script = some next) :
    ∃ c last, performEach (script.statements.map Statement.execute) { committed := db } = (.ok (), c) ∧
      insertVersion script.stem c.opened = (.ok (), last) ∧ next = last.working := by
  have hactions : performEach (scriptActions script) { committed := db } =
      performEach (script.statements.map Statement.execute ++
        [fun c => (.ok (), c.opened), insertVersion script.stem]) { committed := db } := rfl
  unfold applied at h
  rw [hactions, performEach_append] at h
  rcases hstatements : performEach (script.statements.map Statement.execute) { committed := db } with
    ⟨r, c⟩
  rw [hstatements] at h
  cases r with
  | error e => cases h
  | ok _ =>
    simp only [performEach_cons] at h
    rcases hinsert : insertVersion script.stem c.opened with ⟨_ | _, last⟩
    · rw [hinsert] at h
      cases h
    · rw [hinsert] at h
      cases h
      exact ⟨c, last, rfl, hinsert, rfl⟩

/-- INTERNAL: a script that goes through adds its version.
SOURCE: persistence/sqlite/migrator.py:48-52 -/
theorem applied_versions (hleaves : ∀ statement ∈ script.statements, LeavesVersions statement)
    (h : applied db script = some next) :
    next.versions.getD [] = db.versions.getD [] ++ [script.stem] := by
  obtain ⟨c, last, hstatements, hinsert, rfl⟩ := applied_eq_some h
  have hkeeps := executeAll_keeps hleaves (SameVersions.fresh (rfl : db.versions = db.versions))
    hstatements
  rw [insertVersion_ok hinsert, hkeeps.opened.of_working]
  rfl

/-- All scripts add their versions, one after the other. -/
theorem appliedAll_versions {scripts : List (Script γ)}
    (hleaves : ∀ script ∈ scripts, ∀ statement ∈ script.statements, LeavesVersions statement)
    (h : appliedAll scripts db = some next) :
    next.versions.getD [] = db.versions.getD [] ++ scripts.map Script.stem := by
  induction scripts generalizing db with
  | nil =>
    cases h
    simp
  | cons script rest ih =>
    unfold appliedAll at h
    obtain ⟨middle, hscript, hrest⟩ := Option.bind_eq_some_iff.mp h
    rw [ih (fun other hother => hleaves other (List.mem_cons_of_mem _ hother)) hrest,
      applied_versions (hleaves script (List.mem_cons_self ..)) hscript]
    simp

/-- INTERNAL: the scripts that are still pending on a database to which some have been applied. -/
theorem pendingScripts_of_applied {front back : List (Script γ)}
    (hnodup : (files.map Script.stem).Nodup) (hsplit : pendingScripts files db = front ++ back)
    (hversions : next.versions.getD [] = db.versions.getD [] ++ front.map Script.stem) :
    pendingScripts files next = back := by
  have hstems : ((front ++ back).map Script.stem).Nodup := by
    rw [← hsplit]
    apply List.Nodup.sublist (List.filter_sublist.map _)
    exact ((List.perm_insertionSort _ _).map _).nodup_iff.mpr hnodup
  rw [List.map_append, List.nodup_append] at hstems
  have hagain : pendingScripts files next =
      (pendingScripts files db).filter fun script => script.stem ∉ front.map Script.stem := by
    unfold pendingScripts
    rw [List.filter_filter, hversions]
    congr 1
    funext script
    rw [← Bool.decide_and]
    congr 1
    rw [List.mem_append, not_or, and_comm]
  rw [hagain, hsplit, List.filter_append]
  have hfront : front.filter (fun script => script.stem ∉ front.map Script.stem) = [] := by
    rw [List.filter_eq_nil_iff]
    intro script hin
    simpa using ⟨script, hin, rfl⟩
  have hback : back.filter (fun script => script.stem ∉ front.map Script.stem) = back := by
    rw [List.filter_eq_self]
    intro script hin
    simp only [decide_eq_true_eq]
    intro hstem
    exact hstems.2.2 _ hstem _ (List.mem_map_of_mem hin) rfl
  rw [hfront, hback, List.nil_append]

end Resuming

section OwnTransactions

variable {files : List (Script γ)} {db next : Database γ}

/-- A script that opens a transaction first and leaves its end to the migrator. -/
def InTransaction (statements : List (Statement γ)) : Prop :=
  ∃ rest, statements = .begin :: rest ∧ ∀ statement ∈ rest, ∃ apply, statement = .sql apply

/-- INTERNAL: ordinary statements in a transaction commit nothing. -/
theorem committed_within {rest : List (Statement γ)} {c : Connection γ}
    (hopen : c.transaction.isSome) (hsql : ∀ statement ∈ rest, ∃ apply, statement = .sql apply) :
    (performEach (rest.map Statement.execute) c).2.committed = c.committed := by
  induction rest generalizing c with
  | nil => rfl
  | cons statement rest ih =>
    obtain ⟨apply, rfl⟩ := hsql statement (List.mem_cons_self ..)
    rw [List.map_cons, performEach_cons]
    have hwrite : ∀ db, (c.write db).transaction.isSome ∧ (c.write db).committed = c.committed := by
      intro db
      obtain ⟨t, ht⟩ := Option.isSome_iff_exists.mp hopen
      unfold Connection.write
      rw [ht]
      exact ⟨rfl, rfl⟩
    cases hresult : apply c.transaction.isSome c.working with
    | done db =>
      obtain ⟨hstill, hcommitted⟩ := hwrite db
      simp only [Statement.execute, hresult]
      rw [ih hstill fun other hother => hsql other (List.mem_cons_of_mem _ hother)]
      exact hcommitted
    | failed e db =>
      simp only [Statement.execute, hresult]
      exact (hwrite db).2
    | rolledBack e =>
      simp only [Statement.execute, hresult]
      rfl

/-- INTERNAL: within a transaction no statement commits by itself. -/
theorem ownCommits_of_inTransaction (db : Database γ) {statements : List (Statement γ)}
    (h : InTransaction statements) (n : ℕ) : ownCommits db (statements.take n) = db := by
  obtain ⟨rest, rfl, hsql⟩ := h
  cases n with
  | zero => rfl
  | succ n =>
    unfold ownCommits
    rw [List.take_succ_cons, List.map_cons, performEach_cons]
    exact committed_within rfl fun statement hin => hsql statement (List.mem_of_mem_take hin)

/-- INTERNAL: once a script was applied the table of versions is there. -/
theorem ensured_of_applied {script : Script γ} (h : applied db script = some next) :
    ensured next = next := by
  obtain ⟨c, last, -, hinsert, rfl⟩ := applied_eq_some h
  have hversions := insertVersion_ok hinsert
  unfold ensured createTable
  rw [hversions]
  exact congrArg (fun versions => { last.working with versions := versions }) hversions.symm

/-- INTERNAL: wherever a run of such scripts stands, the next script has committed nothing. -/
theorem progress_of_inTransaction {pending : List (Script γ)} (hdb : ensured db = db)
    (h : ∀ script ∈ pending, InTransaction script.statements) (n : ℕ) :
    ensured (ownCommits (progress db pending n).1 (progress db pending n).2) =
      (progress db pending n).1 := by
  induction pending generalizing db n with
  | nil => exact hdb
  | cons script rest ih =>
    have hscript := h script (List.mem_cons_self ..)
    unfold progress
    split
    · rw [ownCommits_of_inTransaction db hscript]
      exact hdb
    · split
      · next after happlied =>
        apply ih (ensured_of_applied happlied)
        intro other hother
        exact h other (List.mem_cons_of_mem _ hother)
      · have hall := ownCommits_of_inTransaction db hscript script.statements.length
        rw [List.take_length] at hall
        simp only
        rw [hall]
        exact hdb

/-- Scripts that open transactions of their own are atomic under the migrator as it is. -/
theorem nothingCommitted_of_inTransaction (files : List (Script γ)) (db : Database γ)
    (h : ∀ script ∈ files, InTransaction script.statements) (n : ℕ) : NothingCommitted files db n := by
  apply progress_of_inTransaction rfl
  intro script hscript
  exact h script ((List.mem_insertionSort _).mp (List.mem_of_mem_filter hscript))

end OwnTransactions

/-! ## A rebuilt table -/

/-- Whatever step a run of the migrations is stopped at, or fails at: the database is that of the
completed scripts, applied completely, if and only if what the statements of the next script have
committed by themselves changes nothing. A rerun then resumes at that script, provided that the scripts
leave the table of versions to the migrator. -/
theorem prefix_applied_iff (files : List (Script γ)) (db : Database γ)
    (interruption : Interruption) (n : ℕ) :
    (PrefixApplied files db (leftBy interruption n files db) ↔ NothingCommitted files db n) ∧
      (PrefixApplied files db (leftBy interruption n files db) →
        (files.map Script.stem).Nodup →
        (∀ script ∈ files, ∀ statement ∈ script.statements, LeavesVersions statement) →
        pendingScripts files (leftBy interruption n files db).connection.committed =
          (pendingScripts files db).drop (leftBy interruption n files db).newlyApplied.length) := by
  have hdurable : durable (leftBy interruption n files db) = durable (leftBy .stop n files db) := by
    cases interruption with
    | stop => rfl
    | failure e => exact failure_leaves_stop e n files db
  obtain ⟨hcommitted, hnewly⟩ := Prod.mk.inj hdurable
  obtain ⟨front, back, hsplit, hfront, happlied, hensured⟩ := stopped_cut files db n
  constructor
  · constructor
    · rintro ⟨front', back', hsplit', hnewly', happlied'⟩
      have hlength : front'.length = front.length := by
        have hstems := hnewly'.symm.trans (hnewly.trans hfront)
        simpa using congrArg List.length hstems
      obtain ⟨rfl, -⟩ := List.append_inj (hsplit'.symm.trans hsplit) hlength
      show ensured (ownCommits _ _) = _
      rw [← hensured, ← hcommitted]
      exact Option.some.inj (happlied'.symm.trans happlied)
    · intro hnothing
      refine ⟨front, back, hsplit, hnewly.trans hfront, ?_⟩
      rw [happlied, hcommitted, hensured]
      exact congrArg some hnothing.symm
  · rintro ⟨front', back', hsplit', hnewly', happlied'⟩ hnodup hleaves
    rw [hnewly', List.length_map, hsplit', List.drop_left]
    apply pendingScripts_of_applied hnodup hsplit'
    have hin : ∀ script ∈ front', script ∈ files := by
      intro script hscript
      have hpending : script ∈ pendingScripts files db := by
        rw [hsplit']
        exact List.mem_append_left _ hscript
      exact (List.mem_insertionSort _).mp (List.mem_of_mem_filter hpending)
    have hversions := appliedAll_versions (fun script hscript => hleaves script (hin script hscript))
      happlied'
    exact hversions

/-- A statement on the names of the tables. -/
def onTables (apply : List String → Except Err (List String)) : Statement (List String) :=
  .sql fun _ db =>
    match apply db.contents with
    | .ok tables => .done { db with contents := tables }
    | .error e => .failed e db

/-- The table `intents` is rebuilt. -/
def intentOwnership : Script (List String) :=
  { stem := "0013_intent_request_ownership"
    statements :=
      [onTables fun tables =>
          if "intents_new" ∈ tables then
            .error (operationalError "table intents_new already exists")
          else .ok (tables ++ ["intents_new"]),
        onTables fun tables =>
          if "intents" ∈ tables then .ok (tables.filter (· ≠ "intents"))
          else .error (operationalError "no such table: intents"),
        onTables fun tables =>
          .ok (tables.map fun table => if table = "intents_new" then "intents" else table)] }

/-- A database before that migration. -/
def beforeRebuild : Database (List String) := { contents := ["tasks", "intents"] }

/-- The disk is full when the old table is to be dropped. -/
def halfRebuilt : MigrationState (List String) :=
  leftBy (.failure (operationalError "database or disk is full")) 7 [intentOwnership] beforeRebuild

/-- The migration has failed, the new table stays, and every rerun fails because of it. -/
theorem failed_migration_stays :
    ¬ PrefixApplied [intentOwnership] beforeRebuild halfRebuilt ∧
      halfRebuilt.connection.committed.contents = ["tasks", "intents", "intents_new"] ∧
      ((runMigrations [intentOwnership]).run { connection := halfRebuilt.connection }).1 =
        .error (operationalError "table intents_new already exists") := by
  refine ⟨?_, by decide, by decide⟩
  rintro ⟨front, back, -, hnewly, happlied⟩
  have hnone : halfRebuilt.newlyApplied = [] := by decide
  have hempty : front = [] := by
    rw [hnone] at hnewly
    exact List.map_eq_nil_iff.mp hnewly.symm
  rw [hempty] at happlied
  have hcommitted : ensured beforeRebuild ≠ ensured halfRebuilt.connection.committed := by decide
  exact hcommitted (Option.some.inj happlied)

example : (runMigrations [intentOwnership]).run { connection := { committed := beforeRebuild } } =
    (.ok ["0013_intent_request_ownership"],
      { connection := { committed := { contents := ["tasks", "intents"],
                                       versions := some ["0013_intent_request_ownership"] } },
        newlyApplied := ["0013_intent_request_ownership"] }) := rfl

end Shea.Analysis
