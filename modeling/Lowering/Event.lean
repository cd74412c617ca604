import Lowering.Diagnostic

/-!
# What lowering logs

Lowering a module or a crate leaves a log of events, also when it stops at a
diagnostic. A traced computation is its log together with its outcome; running
one after another joins the logs, and nothing is logged after a diagnostic.
-/

namespace Lowering

/-- One thing that lowering logs. -/
inductive Event where
  | enterCrate (name : String)
  | enterModule (path : Core.ItemPath)
  | macroIgnored (name : String)
  | macroReplaced (name : String)
  | macroTable (count : Nat)
  | item (name : String)
  | removedItem (name : String)
  | externCrate (name : String)
  | moduleLowered (types values : Nat)
  deriving DecidableEq

/-- The line of an event: its level, what happened, and the values. -/
def Event.line : Event → String
  | .enterCrate n => "SPAN lower_crate crate_name=" ++ n
  | .enterModule p => "SPAN lower_module path=" ++ p.text
  | .macroIgnored n => "DEBUG macro redefinition ignored name=" ++ n
  | .macroReplaced n => "DEBUG macro redefinition replaces earlier one name=" ++ n
  | .macroTable c => "DEBUG macro table built macros=" ++ toString c
  | .item n => "TRACE lowering item name=" ++ n
  | .removedItem n => "DEBUG skipping removed item name=" ++ n
  | .externCrate n => "DEBUG `extern crate` not lowered crate_name=" ++ n
  | .moduleLowered t v =>
    "DEBUG module lowered types=" ++ toString t ++ " values=" ++ toString v

/-- An outcome together with what was logged on the way to it. -/
structure Traced (α : Type) where
  log : List Event
  outcome : Except Diagnostic α

namespace Traced

/-- A computation that logs nothing. -/
def lift {α : Type} (r : Except Diagnostic α) : Traced α := ⟨[], r⟩

/-- Logs one event. -/
def emit (e : Event) : Traced Unit := ⟨[e], .ok ()⟩

/-- Runs `f` on the result of `t`, unless `t` stopped. -/
def andThen {α β : Type} (t : Traced α) (f : α → Traced β) : Traced β :=
  match t.outcome with
  | .error d => ⟨t.log, .error d⟩
  | .ok a =>
    let next := f a
    ⟨t.log ++ next.log, next.outcome⟩

instance : Monad Traced where
  pure a := lift (.ok a)
  bind := andThen

end Traced

end Lowering
