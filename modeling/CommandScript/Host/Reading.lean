import CommandScript.Evaluation.Evaluator

/-!
# Reading mailboxes while runs go on

A host that takes a value from a mailbox makes room in it, and a run that waited for room goes on at
once. So a reader looks after every value whether a request has been answered. Any number of runs
may be in the background of a reading. `attend` adds one run to what a reader looks after: by
recursion on that run, and whatever the reader below it does. At most one request is answered at a
time, so it does not matter in which order the runs are looked after.
-/

namespace CommandScript.Host

open CommandScript.Machine CommandScript.Evaluation

variable {Host : Type}

/-! ## Mailboxes -/

/-- What became of a request, which is withdrawn if it would have to wait. -/
def orWithdraw (id : MailboxId) (progress : Machine Host × Progress) :
    Machine Host × Option (Mailbox.Outcome Value) :=
  match progress with
  | (machine, .ended outcome) => (machine, some outcome)
  | (machine, .waiting pending) => (machine.abandon id pending.id, none)

/-- Takes a value from a mailbox if there is one. -/
def takeNow (machine : Machine Host) (id : MailboxId) :
    Machine Host × Option (Mailbox.Outcome Value) :=
  orWithdraw id (machine.take id)

/-- Pushes a value on a mailbox if it is accepted at once. -/
def pushNow (machine : Machine Host) (id : MailboxId) (value : Value) :
    Machine Host × Option (Mailbox.Outcome Value) :=
  orWithdraw id (machine.push id value none)

/-- The value that a take has yielded. -/
def takenValue? (outcome : Option (Mailbox.Outcome Value)) : Option Value :=
  match outcome with
  | some (.ok answer) => answer.value?
  | _ => none

/-- The number of values that can be taken from a mailbox: those in it, and those that wait for
room. -/
def held (machine : Machine Host) (id : MailboxId) : Nat :=
  match machine.mailboxes[id]? with
  | some mailbox => mailbox.actor.buffer.length + mailbox.actor.blocked.length
  | none => 0

/-! ## Requests -/

/-- A request that a run waits for. -/
structure Request where
  mailbox : MailboxId
  pending : Mailbox.Pending

/-- The request has been answered or has failed. -/
def Request.isAnswered (request : Request) (machine : Machine Host) : Bool :=
  (machine.poll request.mailbox request.pending).2.isSome

/-- One of some requests has been answered or has failed. -/
def anyAnswered (watched : List Request) (machine : Machine Host) : Bool :=
  watched.any fun request => request.isAnswered machine

/-! ## Reading without runs -/

/-- What a reader keeps besides the machine that it reads from. -/
structure Reading (Host : Type) where
  /-- The runs in the background. -/
  runs : List (Eval Host Value)
  /-- The mailboxes that are still to be read, in order. -/
  ahead : List MailboxId
  /-- The values taken so far, each with the mailbox that it was in. -/
  taken : Array (MailboxId × Value)

namespace Reading

/-- The values that were taken from a mailbox. -/
def values (reading : Reading Host) (id : MailboxId) : List Value :=
  reading.taken.toList.filterMap fun entry => if entry.1 = id then some entry.2 else none

/-- The reading with a further value that was taken from a mailbox. -/
def add (reading : Reading Host) (id : MailboxId) (value : Value) : Reading Host :=
  { reading with taken := reading.taken.push (id, value) }

/-- The reading with the mailboxes that are still to be read. -/
def withAhead (reading : Reading Host) (ahead : List MailboxId) : Reading Host :=
  { reading with ahead := ahead }

/-- The reading with a further run in the background, which is put before the others. -/
def withRun (reading : Reading Host) (run : Eval Host Value) : Reading Host :=
  { reading with runs := run :: reading.runs }

end Reading

/-- A way of reading until one of the watched requests has been answered or all has been read. -/
abbrev Reader (Host : Type) : Type :=
  List Request → Machine Host → Reading Host → Machine Host × Reading Host

/-- Takes up to the given number of values from a mailbox, until it is empty or a watched request
has been answered. -/
def takeFrom (id : MailboxId) : Nat → Reader Host
  | 0 => fun _ machine reading => (machine, reading)
  | count + 1 => fun watched machine reading =>
    if anyAnswered watched machine || (machine.counts id).1 == 0 then (machine, reading)
    else
      match takeNow machine id with
      | (after, outcome) =>
        match takenValue? outcome with
        | none => (after, reading)
        | some value => takeFrom id count watched after (reading.add id value)

/-- Reads mailboxes in order, each until it is empty, until a watched request has been answered.
Those that are still to be read are then ahead, the one being read among them. -/
def goThrough : List MailboxId → Reader Host
  | [] => fun _ machine reading => (machine, reading.withAhead [])
  | id :: rest => fun watched machine reading =>
    match takeFrom id (held machine id) watched machine reading with
    | (after, later) =>
      if anyAnswered watched after then (after, later.withAhead (id :: rest))
      else goThrough rest watched after later

/-- Reads the mailboxes that are ahead and then those of a further round. -/
def readAlone (round : List MailboxId) : Reader Host :=
  fun watched machine reading =>
    match goThrough reading.ahead watched machine reading with
    | (after, later) =>
      if later.ahead.isEmpty then goThrough round watched after later else (after, later)

/-! ## Reading with runs in the background -/

/-- Reads while a run goes on whenever its own request has been answered. -/
def attend (read : Reader Host) (watched : List Request) :
    Run Host Value → Reading Host → Machine Host × Reading Host
  | .ended outcome machine, reading =>
    match read watched machine reading with
    | (after, later) => (after, later.withRun fun machine => .ended outcome machine)
  | .waiting mailbox pending machine resume, reading =>
    match read (⟨mailbox, pending⟩ :: watched) machine reading with
    | (after, later) =>
      if anyAnswered watched after then
        (after, later.withRun fun machine => .waiting mailbox pending machine resume)
      else
        match after.poll mailbox pending with
        | (polled, some outcome) => attend read watched (resume outcome polled) later
        | (polled, none) =>
          (polled, later.withRun fun machine => .waiting mailbox pending machine resume)

/-- The reader that lets the given number of runs in the background go on. -/
def attendAll (read : Reader Host) : Nat → Reader Host
  | 0 => read
  | count + 1 => fun watched machine reading =>
    match reading.runs with
    | [] => read watched machine reading
    | run :: rest =>
      attend (attendAll read count) watched (run machine) { reading with runs := rest }

/-- Reads the mailboxes that are ahead, while the runs in the background go on, and then those of a
further round until all of them are empty. -/
def readOn (round : List MailboxId) : Reader Host :=
  fun watched machine reading =>
    attendAll (readAlone round) reading.runs.length watched machine reading

/-- Reads mailboxes in order after those that are ahead, while the runs in the background go on. -/
def readRest (mailboxes : List MailboxId) (machine : Machine Host) (reading : Reading Host) :
    Machine Host × Reading Host :=
  readOn [] [] machine (reading.withAhead (reading.ahead ++ mailboxes))

/-! ## Bringing a run to its end -/

/-- How far a run has come. -/
inductive Ending where
  | ended (outcome : Except Halt Value)
  | blocked

/-- The two channels of output, in the order in which they are read. -/
def outputs : List MailboxId :=
  [stdoutId, stderrId]

/-- A run that has come to its end, with the machine and the reading of its output. -/
structure Finished (Host : Type) where
  machine : Machine Host
  reading : Reading Host
  ending : Ending

/-- The end of a run, after which the output is read once more. -/
def Finished.of (machine : Machine Host) (reading : Reading Host) (ending : Ending) :
    Finished Host :=
  let (final, read) := readRest outputs machine reading
  ⟨final, read, ending⟩

/-- Brings a run to its end. While it waits the output is read in rounds, all of the ordinary output
before any diagnostics, and the run goes on as soon as its request has been answered. If a round
brings nothing more, the run is given up and its request withdrawn. A round that was begun is
completed, and one more follows at the end. -/
def finish (run : Run Host Value) (reading : Reading Host) : Finished Host :=
  match run with
  | .ended outcome machine => .of machine reading (.ended outcome)
  | .waiting mailbox pending machine resume =>
    match readOn outputs [⟨mailbox, pending⟩] machine reading with
    | (after, later) =>
      match after.poll mailbox pending with
      | (polled, some outcome) => finish (resume outcome polled) later
      | (polled, none) => .of (polled.abandon mailbox pending.id) later .blocked

end CommandScript.Host
