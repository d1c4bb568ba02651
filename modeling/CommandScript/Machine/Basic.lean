import CommandScript.Loader.Basic
import CommandScript.Machine.Value
import CommandScript.Mailbox.ChannelName
import CommandScript.Settings.Basic

/-!
# Machines

A machine holds all that evaluation reads and changes: scopes, modules with their function tables,
the registry of loaded modules, mailboxes, and the host processes with the state of the host. The
root scope binds the default channels and lies above the scope of every module. The scripts that a
host runs belong to the main module.
-/

namespace CommandScript

namespace Machine

/-- A module: its path, its top scope, and the functions it defines, in the order of their
definition. -/
structure Module where
  path : String
  scope : ScopeId
  functions : List (Symbol × Function)

/-- What a host process is called with: the arguments, and the counts of the mailboxes they may
hold. -/
structure ProcessCall where
  args : List Value
  counts : Value.MailboxCounts

/-- A native command that the host adds. It may change the state of the host. -/
structure HostProcess (Host : Type) where
  name : String
  run : ProcessCall → Host → Except EvalError Value × Host

/-- The path of the module that the scripts of the host belong to. -/
def mainPath : String := "<main.gshell>"

/-- The identifier of the root scope. -/
def rootScope : ScopeId := 0

/-- The identifier of the main module. -/
def mainModule : ModuleId := 0

/-- The token that all printing waits with. -/
def printToken : Mailbox.TokenId := 0

/-- The mailbox of ordinary output. -/
def stdoutId : MailboxId := 0

/-- The mailbox of diagnostics. -/
def stderrId : MailboxId := 1

/-- The mailbox of input. -/
def stdinId : MailboxId := 2

end Machine

open Machine

/-- The state of an interpreter. -/
structure Machine (Host : Type) where
  scopes : Scopes Value
  modules : Array Module
  /-- The loaded modules by their paths. -/
  registry : List (String × ModuleId)
  mailboxes : Array (Mailbox Value)
  /-- The mailboxes that have an address. -/
  channels : List (Mailbox.ChannelName × MailboxId)
  processes : Array (HostProcess Host)
  loader : Option (Loader Host)
  host : Host
  signals : Mailbox.Signals
  settings : Settings
  /-- The identifier of the next function. -/
  nextFunction : Nat

namespace Machine

variable {Host : Type}

/-- A mailbox as the settings of its channel demand. -/
def freshMailbox (settings : Settings) (channel : Channel) : Mailbox Value :=
  let wanted := settings.channels channel
  Mailbox.new wanted.capacity wanted.policy settings.requests

/-- The default channels, in the order in which the root scope binds them. -/
def defaultChannels : List (Symbol × Channel × MailboxId) :=
  [(Keyword.stdout, .stdout, stdoutId), (Keyword.stderr, .stderr, stderrId),
    (Keyword.stdin, .stdin, stdinId)]

/-- The scopes of a fresh machine: the root with the default channels, and the main module below
it. -/
def firstScopes : Scopes Value :=
  let root :=
    defaultChannels.foldl
      (fun scopes channel => scopes.assign rootScope channel.1 (.mailbox channel.2.2))
      (Scopes.empty.addRoot)
  root.addBlock rootScope

/-- A machine in which nothing has run. -/
def new (settings : Settings) (loader : Option (Loader Host)) (host : Host) : Machine Host where
  scopes := firstScopes
  modules := #[⟨mainPath, 1, []⟩]
  registry := [(mainPath, mainModule)]
  mailboxes := (defaultChannels.map fun channel => freshMailbox settings channel.2.1).toArray
  channels :=
    defaultChannels.map fun channel => (⟨Keyword.localScope, channel.1⟩, channel.2.2)
  processes := #[]
  loader := loader
  host := host
  signals := Mailbox.Signals.start.addToken none
  settings := settings
  nextFunction := 0

/-! ## Modules -/

/-- The module of an identifier. -/
def module? (machine : Machine Host) (id : ModuleId) : Option Module :=
  machine.modules[id]?

/-- The loaded module of a path. -/
def loaded? (machine : Machine Host) (path : String) : Option ModuleId :=
  machine.registry.lookup path

/-- The function that a module defines under a name. -/
def function? (machine : Machine Host) (id : ModuleId) (name : Symbol) : Option Function :=
  (machine.module? id).bind fun module => module.functions.lookup name

/-- The path of a module. -/
def modulePath (machine : Machine Host) (id : ModuleId) : String :=
  match machine.module? id with
  | some module => module.path
  | none => ""

/-- The top scope of a module. -/
def moduleScope (machine : Machine Host) (id : ModuleId) : ScopeId :=
  match machine.module? id with
  | some module => module.scope
  | none => rootScope

/-- The names of the functions that a module defines, in order. -/
def Module.functionNames (module : Module) : List Symbol :=
  (module.functions.map Prod.fst).mergeSort Symbol.precedes

/-- The module as a diagnostic shows it. -/
def Module.inspected (module : Module) : String :=
  "Module \x7b path: " ++ Text.quoted module.path ++ ", functions: " ++
    Source.bracketed (module.functionNames.map Symbol.inspected) ++ " \x7d"

/-- The machine with one more function in the table of a module. -/
def define (machine : Machine Host) (id : ModuleId) (function : Function) : Machine Host :=
  { machine with
    modules := machine.modules.modify id fun module =>
      { module with functions := module.functions ++ [(function.name, function)] }
    nextFunction := machine.nextFunction + 1 }

/-- The machine with a further module that is registered under its path. -/
def addModule (machine : Machine Host) (path : String) : Machine Host :=
  { machine with
    scopes := machine.scopes.addBlock rootScope
    modules := machine.modules.push ⟨path, machine.scopes.next, []⟩
    registry := machine.registry ++ [(path, machine.modules.size)] }

/-- The machine without a registered module of the path. -/
def unregister (machine : Machine Host) (path : String) : Machine Host :=
  { machine with registry := machine.registry.filter fun entry => entry.1 ≠ path }

/-! ## Mailboxes -/

/-- The depth of a mailbox and the number of items it has lost. -/
def counts (machine : Machine Host) (id : MailboxId) : Nat × Nat :=
  match machine.mailboxes[id]? with
  | some mailbox => (mailbox.depth, mailbox.discarded)
  | none => (0, 0)

/-- The machine with another mailbox in the place of one. -/
def withMailbox (machine : Machine Host) (id : MailboxId) (mailbox : Mailbox Value) :
    Machine Host :=
  { machine with mailboxes := machine.mailboxes.setIfInBounds id mailbox }

/-- The actor of a mailbox serves its queues. -/
def serve (machine : Machine Host) (id : MailboxId) : Machine Host :=
  match machine.mailboxes[id]? with
  | some mailbox => machine.withMailbox id mailbox.serve.1
  | none => machine

/-- A client looks at its request. -/
def poll (machine : Machine Host) (id : MailboxId) (pending : Mailbox.Pending) :
    Machine Host × Option (Mailbox.Outcome Value) :=
  match machine.mailboxes[id]? with
  | some mailbox =>
    let (after, outcome) := mailbox.poll machine.signals.fired? pending
    (machine.withMailbox id after, outcome)
  | none => (machine, some (.error .notRunning))

/-- A client gives up its request, and the actor serves its queues. -/
def abandon (machine : Machine Host) (id : MailboxId) (request : Mailbox.RequestId) :
    Machine Host :=
  match machine.mailboxes[id]? with
  | some mailbox => (machine.withMailbox id (mailbox.abandon request).1).serve id
  | none => machine

/-- What became of a request after the actor has served its queues. -/
inductive Progress where
  | ended (outcome : Mailbox.Outcome Value)
  | waiting (pending : Mailbox.Pending)

/-- A client issues a request and looks at it again after the actor has served its queues. -/
def request (machine : Machine Host) (id : MailboxId) (token : Option Mailbox.TokenId)
    (issue : Mailbox Value → Mailbox Value × Mailbox.Issue Value) : Machine Host × Progress :=
  match machine.mailboxes[id]? with
  | none => (machine, .ended (.error .notRunning))
  | some mailbox =>
    let (after, issued) := issue mailbox
    let served := (machine.withMailbox id after).serve id
    match issued.outcome with
    | some outcome => (served, .ended outcome)
    | none =>
      let pending : Mailbox.Pending := ⟨issued.id, token⟩
      match served.poll id pending with
      | (final, some outcome) => (final, .ended outcome)
      | (final, none) => (final, .waiting pending)

/-- A client pushes a value. -/
def push (machine : Machine Host) (id : MailboxId) (value : Value)
    (token : Option Mailbox.TokenId) : Machine Host × Progress :=
  machine.request id token fun mailbox => mailbox.push machine.signals.fired? value token

/-- A client takes a value. -/
def take (machine : Machine Host) (id : MailboxId) : Machine Host × Progress :=
  machine.request id none fun mailbox => mailbox.take machine.signals.fired? none

/-! ## Host processes -/

/-- The machine with a further host process. -/
def addProcess (machine : Machine Host) (process : HostProcess Host) : Machine Host :=
  { machine with processes := machine.processes.push process }

/-- The identifier of the next host process. -/
def nextProcess (machine : Machine Host) : ProcessId :=
  machine.processes.size

end Machine

end CommandScript
