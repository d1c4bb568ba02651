import CommandScript.Symbol

/-!
# Names of channels

A channel is addressed by a scope and an identifier within it. Three scopes belong to the runtime.
-/

namespace CommandScript.Mailbox

/-- The address of a channel. -/
structure ChannelName where
  scope : Symbol
  id : Symbol
deriving DecidableEq

namespace ChannelName

/-- The address spelled by two texts; the scope is examined first. -/
def ofTexts? (scope id : String) : Except InvalidSymbol ChannelName := do
  let scope ← Symbol.ofText? scope
  let id ← Symbol.ofText? id
  return ⟨scope, id⟩

/-- The scopes that belong to the runtime. -/
def reservedScopes : List String :=
  ["local", "refs", "pids"]

/-- The scope belongs to the runtime. -/
def isReserved (scope : Symbol) : Bool :=
  reservedScopes.contains scope.text

/-- The address as text. -/
def render (name : ChannelName) : String :=
  name.scope.text ++ ":" ++ name.id.text

end ChannelName

end CommandScript.Mailbox
