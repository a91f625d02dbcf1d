import FormLowering.Report.Diagnostic

/-!
The error log of a unit. It keeps reports up to a limit, counts what it drops, and can be set back
to an earlier mark, which undoes both.
-/

namespace FormLowering

/-- The end of a log at one moment. -/
structure Checkpoint where
  length : Nat
  dropped : Nat
  deriving DecidableEq, Repr, Inhabited

def Checkpoint.isEmpty (mark : Checkpoint) : Bool := mark.length == 0

/-- Reports in the order they were made; `limit` zero keeps them all. -/
structure Log where
  limit : Nat := 100
  entries : List Diagnostic := []
  dropped : Nat := 0
  deriving DecidableEq, Repr, Inhabited

namespace Log

def isFull (log : Log) : Bool := log.limit != 0 && log.limit ≤ log.entries.length

/-- Keeps the report unless the log is full, when it is only counted. -/
def push (log : Log) (diagnostic : Diagnostic) : Log :=
  if log.isFull then { log with dropped := log.dropped + 1 }
  else { log with entries := log.entries ++ [diagnostic] }

/-- Reports, and tells whether the report was kept. -/
def record (log : Log) (diagnostic : Diagnostic) : Bool × Log :=
  (!log.isFull, log.push diagnostic)

/-- What a caller is told in place of a report that it does not see. -/
def receipt : String := "error(s) emitted"

def checkpoint (log : Log) : Checkpoint := ⟨log.entries.length, log.dropped⟩

/-- Forgets everything that came after the mark. -/
def rollback (log : Log) (mark : Checkpoint) : Log :=
  { log with entries := log.entries.take mark.length, dropped := mark.dropped }

def hasErrors (log : Log) : Bool := !log.entries.isEmpty

def last? (log : Log) : Option Diagnostic := log.entries.getLast?

@[simp] theorem push_limit (log : Log) (diagnostic : Diagnostic) :
    (log.push diagnostic).limit = log.limit := by
  unfold push; split <;> rfl

@[simp] theorem rollback_checkpoint (log : Log) : log.rollback log.checkpoint = log := by
  simp [rollback, checkpoint]

/-- A mark taken before a report undoes that report, kept or dropped. -/
@[simp] theorem rollback_push (log : Log) (diagnostic : Diagnostic) :
    (log.push diagnostic).rollback log.checkpoint = log := by
  unfold push; split <;> simp [rollback, checkpoint]

end Log

end FormLowering
