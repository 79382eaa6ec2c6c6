import AgentOAuth.Lib.Interleaving
import AgentOAuth.Model.Text

/-!
# The migration runner

`migrate` of `src/storage/database.py`, statement by statement.  A run is one
transaction: what it writes stays in the run until its commit, and an exception
rolls it back.  The primary key of `schema_version` holds across transactions:
inserting a name waits while another open transaction has inserted it, and fails
once it is committed.

A migration file is never edited, so its name stands for its SQL.
-/

namespace AgentOAuth

open Interleaving Transition

namespace Migrations

/-- What a run writes. -/
inductive Write
  /-- The effects of the file's SQL. -/
  | sql (name : String)
  /-- The row of `schema_version`. -/
  | version (name : String)
  deriving DecidableEq

/-- The file whose statements were run. -/
def Write.sqlName : Write → Option String
  | .sql name => some name
  | .version _ => none

/-- The file that was noted as applied. -/
def Write.versionName : Write → Option String
  | .sql _ => none
  | .version name => some name

/-- The database and the migrations directory.  Committed writes and rows of open
transactions carry the number of their run. -/
structure Shared where
  files : List String := []
  committed : List (ℕ × Write) := []
  pending : List (ℕ × String) := []
  deriving DecidableEq

/-- The committed rows of `schema_version`. -/
def Shared.versions (s : Shared) : List String :=
  s.committed.filterMap fun entry => entry.2.versionName

/-- The files whose SQL is committed, once for each time. -/
def Shared.effects (s : Shared) : List String :=
  s.committed.filterMap fun entry => entry.2.sqlName

/-- A run inside its loop. -/
structure Loop where
  applied : List String
  /-- The files that were there when the directory was listed. -/
  listed : List String
  /-- What the loop has not reached yet. -/
  todo : List String
  ran : List String := []
  writes : List Write := []
  deriving DecidableEq

/-- Where a run of `migrate` stands. -/
inductive Run
  /-- `CREATE TABLE IF NOT EXISTS schema_version`. -/
  | creating
  /-- `SELECT name FROM schema_version`. -/
  | selecting
  /-- `sorted(MIGRATIONS_DIRECTORY.glob("*.sql"))`. -/
  | listing (applied : List String)
  | applying (loop : Loop)
  /-- `INSERT INTO schema_version`, after the SQL of the file. -/
  | recording (name : String) (loop : Loop)
  | returned (listed ran : List String)
  | failed
  deriving DecidableEq

/-- What a run does next. -/
inductive RunAction
  | proceed
  /-- The next statement raises, or the connection is lost. -/
  | fail

/-- The open transaction of a run is undone, and its locks are gone. -/
def Shared.rollback (s : Shared) (i : ℕ) : Shared :=
  { s with pending := s.pending.filter fun entry => entry.1 ≠ i }

/-- The open transaction of a run becomes visible. -/
def Shared.commit (s : Shared) (i : ℕ) (writes : List Write) : Shared :=
  { s with
    committed := s.committed ++ writes.map fun write => (i, write)
    pending := s.pending.filter fun entry => entry.1 ≠ i }

/-- The next statement of `migrate`. -/
def step (i : ℕ) (s : Shared) : Run → RunAction → Option (Shared × Run)
  | .returned _ _, _ => none
  | .failed, _ => none
  | _, .fail => some (s.rollback i, .failed)
  | .creating, .proceed => some (s, .selecting)
  | .selecting, .proceed => some (s, .listing s.versions)
  | .listing applied, .proceed =>
      some (s, .applying { applied, listed := s.files, todo := sorted s.files })
  | .applying loop, .proceed =>
      match loop.todo with
      | [] => some (s.commit i loop.writes, .returned loop.listed loop.ran)
      | name :: todo =>
          if name ∈ loop.applied then some (s, .applying { loop with todo })
          else some (s, .recording name { loop with todo, writes := loop.writes ++ [.sql name] })
  | .recording name loop, .proceed =>
      if name ∈ s.versions ∨ (i, name) ∈ s.pending then
        -- `UniqueViolation`
        some (s.rollback i, .failed)
      else if ∃ entry ∈ s.pending, entry.2 = name then none
      else
        some ({ s with pending := (i, name) :: s.pending },
          .applying { loop with
            ran := loop.ran ++ [name]
            writes := loop.writes ++ [.version name] })

/-- A file is added to the directory. -/
def addFile (s : Shared) (name : String) : Option Shared :=
  if name ∈ s.files then none else some { s with files := name :: s.files }

/-- The runs of `migrate` over one database; the environment adds files. -/
def program : Program Shared Run String RunAction where
  step := step
  environment := addFile

/-- Runs of `migrate` on a database that was empty at first. -/
def migrating : System (Config Shared Run) (Interleaving.Event String RunAction) :=
  program.system (fun s => s.committed = [] ∧ s.pending = [] ∧ s.files.Nodup) .creating

end Migrations

end AgentOAuth
