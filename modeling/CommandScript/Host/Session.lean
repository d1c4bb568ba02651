import CommandScript.Host.Reading

/-!
# Sessions

What a host does with a machine: it runs scripts in the main module, reads what they print, opens
channels of its own, and asks about modules and scopes. A run that waits for room in a mailbox stays
in the session. It goes on by itself whenever a step of the session has brought the answer that it
waits for. How it has ended can be asked for until another run is started.
-/

namespace CommandScript.Host

open CommandScript.Machine CommandScript.Evaluation CommandScript.Source

variable {Host : Type}

/-- How deeply scripts may be nested while they run. -/
def nestingLimit : Nat := Nat.pow 10 9

/-- The run of a script in the main module. -/
def runScript (machine : Machine Host) (script : Script) : Run Host Value :=
  evalScript nestingLimit script ⟨machine.moduleScope mainModule, mainModule⟩ machine

/-- The run of a source text in the main module. -/
def runSource (machine : Machine Host) (text : String) : Run Host Value :=
  match Script.parse text with
  | .ok script => runScript machine script
  | .error error => .ended (.error (.failed (.parse error))) machine

/-! ## Runs -/

/-- Runs are taken up on a machine, in the order in which they were started, and each goes on as far
as it can. The run started last comes first. -/
def goOnAll (machine : Machine Host) :
    List (Eval Host Value) → Machine Host × List (Eval Host Value)
  | [] => (machine, [])
  | run :: earlier =>
    let (before, others) := goOnAll machine earlier
    let later := (run before).goOn
    (later.machine, later.rest :: others)

/-- What has been read from the two channels of output. -/
structure Output where
  out : List Value
  err : List Value

/-- A machine with what is left of the runs that had to wait. The run started last may be kept: its
result can be asked for. Nobody asks for the results of the detached ones. -/
structure Session (Host : Type) where
  machine : Machine Host
  kept : Option (Eval Host Value)
  detached : List (Eval Host Value)

namespace Session

/-- A session in which nothing has run. -/
def start (machine : Machine Host) : Session Host :=
  ⟨machine, none, []⟩

/-- All runs that had to wait, the one started last first. -/
def runs (session : Session Host) : List (Eval Host Value) :=
  session.kept.toList ++ session.detached

/-- The session with the machine and what is left of its runs, which go on as far as they can. -/
def withRuns (session : Session Host) (machine : Machine Host) (runs : List (Eval Host Value)) :
    Session Host :=
  match session.kept, goOnAll machine runs with
  | some _, (later, kept :: detached) => ⟨later, some kept, detached⟩
  | _, (later, detached) => ⟨later, none, detached⟩

/-- The session after something has been done to its machine. -/
def withMachine (session : Session Host) (machine : Machine Host) : Session Host :=
  session.withRuns machine session.runs

/-- A reading that begins, with the runs of the session in the background. -/
def reading (session : Session Host) : Reading Host :=
  ⟨session.runs, [], #[]⟩

/-- Reads a mailbox until it is empty. -/
def drain (session : Session Host) (id : MailboxId) : Session Host × List Value :=
  let (machine, reading) := readRest [id] session.machine session.reading
  (session.withRuns machine reading.runs, reading.values id)

/-- The session in which no run is kept. -/
def detach (session : Session Host) : Session Host :=
  ⟨session.machine, none, session.runs⟩

/-- Brings a run to its end, reading the output when it waits. The run kept before is detached. -/
def run (session : Session Host) (launch : Machine Host → Run Host Value) :
    Session Host × Output × Ending :=
  let finished := finish (launch session.machine) session.reading
  (session.detach.withRuns finished.machine finished.reading.runs,
    ⟨finished.reading.values stdoutId, finished.reading.values stderrId⟩, finished.ending)

/-- A session with the given detached runs and one that is kept if it waits, and how far that one
has come. -/
def keep (detached : List (Eval Host Value)) (run : Run Host Value) : Session Host × Ending :=
  match run with
  | .ended outcome machine => (⟨machine, none, detached⟩, .ended outcome)
  | .waiting mailbox pending machine resume =>
    (⟨machine, some (Run.waiting mailbox pending machine resume).rest, detached⟩, .blocked)

/-- Starts a run and keeps it if it waits. The run kept before is detached, even if the new one ends
at once. -/
def begin (session : Session Host) (launch : Machine Host → Run Host Value) :
    Session Host × Ending :=
  keep session.runs (launch session.machine)

/-- Asks how far the kept run has come. If it has ended it is not kept any longer. -/
def resume (session : Session Host) : Session Host × Option Ending :=
  match session.kept with
  | none => (session, none)
  | some rest =>
    let (after, ending) := keep session.detached (rest session.machine).goOn
    (after, some ending)

end Session

/-! ## Channels -/

/-- The mailbox of an address, made if it does not exist. -/
def openChannel (machine : Machine Host) (scope id : String) :
    Except EvalError (Machine Host × MailboxId) :=
  match Mailbox.ChannelName.ofTexts? scope id with
  | .error error => .error (.invalidSymbol error)
  | .ok name =>
    if Mailbox.ChannelName.isReserved name.scope then .error (.reservedScope name.scope)
    else
      match machine.channels.lookup name with
      | some mailbox => .ok (machine, mailbox)
      | none =>
        let mailbox := machine.mailboxes.size
        .ok ({ machine with
          mailboxes := machine.mailboxes.push (freshMailbox machine.settings .further)
          channels := machine.channels ++ [(name, mailbox)] }, mailbox)

/-- Closes the input of a mailbox. -/
def closeMailbox (machine : Machine Host) (id : MailboxId) : Machine Host :=
  match machine.mailboxes[id]? with
  | some mailbox => (machine.withMailbox id mailbox.close).serve id
  | none => machine

/-- Closes the input of all mailboxes that have an address. -/
def shutdown (machine : Machine Host) : Machine Host :=
  machine.channels.foldl (fun machine channel => closeMailbox machine channel.2) machine

/-- From now on all printing fails. -/
def cancelPrinting (machine : Machine Host) : Machine Host :=
  { machine with signals := machine.signals.cancel printToken }

/-! ## Names -/

/-- Binds a name in a scope, bound already or not. -/
def setName (machine : Machine Host) (scope : ScopeId) (name : Symbol) (value : Value) :
    Machine Host :=
  { machine with scopes := machine.scopes.assign scope name value }

/-- The mailbox that the root scope binds a name to. -/
def rootMailbox? (machine : Machine Host) (name : Symbol) : Option MailboxId :=
  (machine.scopes.lookup rootScope name).bind Value.mailbox?

/-- Binds a host process in the root scope, which must not bind the name yet. -/
def defineProcess (machine : Machine Host) (name : String) (process : HostProcess Host) :
    Except EvalError (Machine Host) :=
  match Symbol.ofText? name with
  | .error error => .error (.invalidSymbol error)
  | .ok symbol =>
    match machine.scopes.bind? rootScope symbol (.process machine.nextProcess process.name) with
    | none => .error (.alreadyBound symbol)
    | some scopes => .ok { machine.addProcess process with scopes := scopes }

end CommandScript.Host
