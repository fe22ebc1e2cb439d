import Mathlib.Data.List.Sort
import Shea.Computation.Program
import Shea.Model.World

/-!
# Schema migrations

`persistence/sqlite/migrator.py`, on a connection with the transaction control of Python's `sqlite3`:
a statement outside of a transaction is committed with its end, `executescript` commits what is pending
and adds no transaction of its own, and only an `INSERT` through `execute` opens one.

The database is whatever the statements make of it, next to the rows of `schema_migrations`.
-/

set_option autoImplicit false

namespace Shea.Model

open Shea.Computation

/-! ## Connections -/

section Connections

variable {γ : Type}

/-- A database, with the rows of `schema_migrations` when it has that table. -/
structure Database (γ : Type) where
  contents : γ
  versions : Option (List String) := none
  deriving DecidableEq

/-- An open transaction: what its connection reads, its savepoints from the newest on, and whether the
oldest of them has opened it. -/
structure Transaction (γ : Type) where
  working : Database γ
  savepoints : List (String × Database γ) := []
  bySavepoint : Bool := false

structure Connection (γ : Type) where
  committed : Database γ
  transaction : Option (Transaction γ) := none

namespace Connection

/-- What the connection reads. -/
def working (c : Connection γ) : Database γ := (c.transaction.map Transaction.working).getD c.committed

/-- A change, within the open transaction or committed at once. -/
def write (c : Connection γ) (db : Database γ) : Connection γ :=
  match c.transaction with
  | none => { committed := db }
  | some t => { c with transaction := some { t with working := db } }

/-- `BEGIN`, where no transaction is open. -/
def opened (c : Connection γ) : Connection γ :=
  match c.transaction with
  | none => { c with transaction := some { working := c.committed } }
  | some _ => c

/-- `commit()`. -/
def commit (c : Connection γ) : Connection γ := { committed := c.working }

/-- `rollback()`. -/
def rollback (c : Connection γ) : Connection γ := { committed := c.committed }

end Connection

end Connections

/-! ## Scripts -/

section Scripts

variable {γ : Type}

/-- What comes of a statement that does not control transactions. -/
inductive Applied (γ : Type)
  | done (db : Database γ)
  /-- It fails. What it has changed before is taken back, or stays (`OR FAIL`). -/
  | failed (error : Err) (db : Database γ)
  /-- It fails, and the transaction is rolled back with it (`OR ROLLBACK`). -/
  | rolledBack (error : Err)

/-- A statement of a script: one that controls transactions, or any other one, which may ask whether a
transaction is open. -/
inductive Statement (γ : Type)
  | sql (apply : (inTransaction : Bool) → Database γ → Applied γ)
  | begin
  | commit
  | rollback
  | savepoint (name : String)
  | release (name : String)
  | rollbackTo (name : String)

def operationalError (message : String) : Err := .other "OperationalError" message

/-- A statement, executed on a connection: what it raises, and the connection behind it. -/
def Statement.execute (statement : Statement γ) (c : Connection γ) : Except Err Unit × Connection γ :=
  match statement with
  | .sql apply =>
    match apply c.transaction.isSome c.working with
    | .done db => (.ok (), c.write db)
    | .failed error db => (.error error, c.write db)
    | .rolledBack error => (.error error, c.rollback)
  | .begin =>
    if c.transaction.isSome then
      (.error (operationalError "cannot start a transaction within a transaction"), c)
    else (.ok (), c.opened)
  | .commit =>
    if c.transaction.isSome then (.ok (), c.commit)
    else (.error (operationalError "cannot commit - no transaction is active"), c)
  | .rollback =>
    if c.transaction.isSome then (.ok (), c.rollback)
    else (.error (operationalError "cannot rollback - no transaction is active"), c)
  | .savepoint name =>
    match c.transaction with
    | none =>
      let t : Transaction γ :=
        { working := c.committed, savepoints := [(name, c.committed)], bySavepoint := true }
      (.ok (), { c with transaction := some t })
    | some t =>
      let t := { t with savepoints := (name, t.working) :: t.savepoints }
      (.ok (), { c with transaction := some t })
  | .release name =>
    match c.transaction with
    | none => (.error (operationalError ("no such savepoint: " ++ name)), c)
    | some t =>
      match t.savepoints.dropWhile (·.1 ≠ name) with
      | [] => (.error (operationalError ("no such savepoint: " ++ name)), c)
      | _ :: older =>
        if older.isEmpty && t.bySavepoint then (.ok (), c.commit)
        else (.ok (), { c with transaction := some { t with savepoints := older } })
  | .rollbackTo name =>
    match c.transaction with
    | none => (.error (operationalError ("no such savepoint: " ++ name)), c)
    | some t =>
      match t.savepoints.dropWhile (·.1 ≠ name) with
      | [] => (.error (operationalError ("no such savepoint: " ++ name)), c)
      | found :: older =>
        let t := { t with working := found.2, savepoints := found :: older }
        (.ok (), { c with transaction := some t })

/-- A file of the migrations directory: its stem and the statements of its text. -/
structure Script (γ : Type) where
  stem : String
  statements : List (Statement γ)

/-- The name of the file. -/
def Script.fileName (script : Script γ) : String := script.stem ++ ".sql"

end Scripts

/-! ## The migrator -/

/-- The connection, and `newly_applied`. -/
structure MigrationState (γ : Type) where
  connection : Connection γ
  newlyApplied : List String := []

/-- A computation on a connection. -/
abbrev MigrationProc (γ : Type) := Program (MigrationState γ) Err

namespace Migrator

variable {γ : Type}

/-- Something is done to the connection that may fail. -/
def perform (action : Connection γ → Except Err Unit × Connection γ) : MigrationProc γ Unit := do
  let result ← Program.act (fun s => (action s.connection).1) fun s =>
    { s with connection := (action s.connection).2 }
  Program.ofExcept result

/-- `CREATE TABLE IF NOT EXISTS schema_migrations`. -/
def createTable (db : Database γ) : Database γ := { db with versions := some (db.versions.getD []) }

/-- `INSERT INTO schema_migrations (version) VALUES (?)`. -/
def insertVersion (version : String) (c : Connection γ) : Except Err Unit × Connection γ :=
  match c.working.versions with
  | none => (.error (operationalError "no such table: schema_migrations"), c)
  | some versions =>
    if version ∈ versions then
      (.error (.integrityError "UNIQUE constraint failed: schema_migrations.version"), c)
    else (.ok (), c.write { c.working with versions := some (versions ++ [version]) })

def ensureMigrationsTable : MigrationProc γ Unit := do
  perform fun c => (.ok (), c.write (createTable c.working))
  Program.modify fun s => { s with connection := s.connection.commit }

def appliedVersions : MigrationProc γ (List String) := do
  ensureMigrationsTable
  Program.get fun s => s.connection.working.versions.getD []

/-- The statements of a script, one after the other. -/
def performAll : List (Statement γ) → MigrationProc γ Unit
  | [] => pure ()
  | statement :: rest => do
    perform statement.execute
    performAll rest

/-- `conn.executescript(sql)`. -/
def executescript (statements : List (Statement γ)) : MigrationProc γ Unit := do
  Program.modify fun s => { s with connection := s.connection.commit }
  performAll statements

/-- The body of the loop; the version joins `newly_applied` with the commit. -/
def applyMigration (script : Script γ) : MigrationProc γ Unit :=
  tryCatch (do
    executescript script.statements
    Program.modify fun s => { s with connection := s.connection.opened }
    perform (insertVersion script.stem)
    Program.modify fun s =>
      { connection := s.connection.commit, newlyApplied := s.newlyApplied ++ [script.stem] })
    fun e => do
      Program.modify fun s => { s with connection := s.connection.rollback }
      throw e

/-- The loop over the files. -/
def migrateAll (already : List String) : List (Script γ) → MigrationProc γ Unit
  | [] => pure ()
  | script :: rest => do
    unless script.stem ∈ already do
      applyMigration script
    migrateAll already rest

/-- `sorted(migrations_dir.glob("*.sql"))`. -/
def sortedFiles (files : List (Script γ)) : List (Script γ) :=
  files.insertionSort fun a b => a.fileName ≤ b.fileName

def runMigrations (files : List (Script γ)) : MigrationProc γ (List String) := do
  ensureMigrationsTable
  let already ← appliedVersions
  migrateAll already (sortedFiles files)
  Program.get MigrationState.newlyApplied

end Migrator

end Shea.Model
