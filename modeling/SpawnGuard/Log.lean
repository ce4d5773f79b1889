/-!
Messages: how grave they are, which part of the program speaks, and the text. Operations hand
their messages back as values; the outer layer decides which to show.
-/
namespace SpawnGuard.Log

inductive Level where
  | debug
  | info
  | warn
  | error
  deriving DecidableEq, Repr

namespace Level

def name : Level → String
  | debug => "DEBUG"
  | info => "INFO"
  | warn => "WARN"
  | error => "ERROR"

end Level

inductive Origin where
  | batch
  | options
  | patches
  | transpiler
  | occupier
  | checker
  deriving DecidableEq, Repr

namespace Origin

def target : Origin → String
  | batch => "airflow_core"
  | options => "airflow_core::options"
  | patches => "airflow_core::patches"
  | transpiler => "airflow_core::transpiler"
  | occupier => "airflow_core::occupier"
  | checker => "airflow_core::checker"

end Origin

structure Entry where
  level : Level
  origin : Origin
  text : String
  deriving DecidableEq, Repr

namespace Entry

def brief (entry : Entry) : String := s!"{entry.level.name} {entry.text}"

def line (entry : Entry) : String :=
  s!"[{entry.level.name} {entry.origin.target}] {entry.text}"

end Entry

end SpawnGuard.Log

namespace SpawnGuard

abbrev Log := List Log.Entry

end SpawnGuard
