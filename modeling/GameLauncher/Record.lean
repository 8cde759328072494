import GameLauncher.Failure

namespace GameLauncher

inductive Level
  | notSet
  | debug
  | info
  | warning
  | error
  | critical
  deriving DecidableEq

namespace Level

def rank : Level → Nat
  | notSet => 0
  | debug => 10
  | info => 20
  | warning => 30
  | error => 40
  | critical => 50

def name : Level → String
  | notSet => "NOTSET"
  | debug => "DEBUG"
  | info => "INFO"
  | warning => "WARNING"
  | error => "ERROR"
  | critical => "CRITICAL"

end Level

inductive Origin
  | settings
  | scanning
  | utils
  | launch
  | cli
  | other (name : String)
  deriving DecidableEq

def Origin.name : Origin → String
  | settings => "emucli.settings"
  | scanning => "emucli.scanning"
  | utils => "emucli.utils"
  | launch => "emucli.launch"
  | cli => "emucli.cli"
  | other name => name

structure Record where
  level : Level
  origin : Origin
  text : String
  deriving DecidableEq

/-- A piece of work that leaves records behind and succeeds or fails. What was recorded before a
failure stays recorded. -/
structure Traced (α : Type) where
  records : List Record
  result : Except Failure α

namespace Traced

variable {α β : Type}

def pure (a : α) : Traced α := ⟨[], .ok a⟩

def bind (t : Traced α) (f : α → Traced β) : Traced β :=
  match t.result with
  | .error e => ⟨t.records, .error e⟩
  | .ok a => ⟨t.records ++ (f a).records, (f a).result⟩

instance : Monad Traced where
  pure := pure
  bind := bind

def ofExcept (r : Except Failure α) : Traced α := ⟨[], r⟩

instance : MonadLift (Except Failure) Traced := ⟨ofExcept⟩

def fail (f : Failure) : Traced α := ⟨[], .error f⟩

def record (r : Record) : Traced Unit := ⟨[r], .ok ()⟩

end Traced

end GameLauncher
