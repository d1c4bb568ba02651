import CommandScript.Machine.Basic

/-!
# Requests to mailboxes

Whoever issues a request, looks at it or gives it up, and whatever the actor does then, changes
nothing of a machine but its mailboxes.
-/

namespace CommandScript.Machine

variable {Host : Type}

/-- Only mailboxes have changed. -/
def OnlyMailboxes (before after : Machine Host) : Prop :=
  ∃ mailboxes, after = { before with mailboxes := mailboxes }

/-- Nothing has changed on the same machine. -/
theorem OnlyMailboxes.refl (machine : Machine Host) : machine.OnlyMailboxes machine :=
  ⟨machine.mailboxes, rfl⟩

/-- Two changes of mailboxes are one. -/
theorem OnlyMailboxes.trans {before middle after : Machine Host}
    (first : before.OnlyMailboxes middle) (second : middle.OnlyMailboxes after) :
    before.OnlyMailboxes after := by
  obtain ⟨mailboxes, rfl⟩ := first
  obtain ⟨mailboxes, rfl⟩ := second
  exact ⟨mailboxes, rfl⟩

/-- A change of mailboxes leaves the scopes as they are. -/
theorem OnlyMailboxes.scopes_eq {before after : Machine Host} (only : before.OnlyMailboxes after) :
    after.scopes = before.scopes := by
  obtain ⟨mailboxes, rfl⟩ := only
  rfl

/-- To put a mailbox in its place changes no more than mailboxes. -/
theorem onlyMailboxes_withMailbox (machine : Machine Host) (id : MailboxId)
    (mailbox : Mailbox Value) : machine.OnlyMailboxes (machine.withMailbox id mailbox) :=
  ⟨_, rfl⟩

/-- To serve a mailbox changes no more than mailboxes. -/
theorem onlyMailboxes_serve (machine : Machine Host) (id : MailboxId) :
    machine.OnlyMailboxes (machine.serve id) := by
  rw [serve]
  cases machine.mailboxes[id]? with
  | none => exact .refl machine
  | some mailbox => exact machine.onlyMailboxes_withMailbox id _

/-- To poll a request changes no more than mailboxes. -/
theorem onlyMailboxes_poll (machine : Machine Host) (id : MailboxId)
    (pending : Mailbox.Pending) : machine.OnlyMailboxes (machine.poll id pending).1 := by
  rw [poll]
  cases machine.mailboxes[id]? with
  | none => exact .refl machine
  | some mailbox => exact machine.onlyMailboxes_withMailbox id _

/-- To abandon a request changes no more than mailboxes. -/
theorem onlyMailboxes_abandon (machine : Machine Host) (id : MailboxId)
    (request : Mailbox.RequestId) : machine.OnlyMailboxes (machine.abandon id request) := by
  rw [abandon]
  cases machine.mailboxes[id]? with
  | none => exact .refl machine
  | some mailbox =>
      exact (machine.onlyMailboxes_withMailbox id _).trans (onlyMailboxes_serve _ id)

/-- To make a request changes no more than mailboxes. -/
theorem onlyMailboxes_request (machine : Machine Host) (id : MailboxId)
    (token : Option Mailbox.TokenId)
    (issue : Mailbox Value → Mailbox Value × Mailbox.Issue Value) :
    machine.OnlyMailboxes (machine.request id token issue).1 := by
  rw [request]
  cases machine.mailboxes[id]? with
  | none => exact .refl machine
  | some mailbox =>
      have served : machine.OnlyMailboxes ((machine.withMailbox id (issue mailbox).1).serve id) :=
        (machine.onlyMailboxes_withMailbox id _).trans (onlyMailboxes_serve _ id)
      dsimp only
      cases (issue mailbox).2.outcome with
      | some outcome => exact served
      | none =>
          dsimp only
          have polled := served.trans (onlyMailboxes_poll _ id ⟨(issue mailbox).2.id, token⟩)
          split
          all_goals
            rename_i found
            rw [found] at polled
            exact polled

/-- A push changes no more than mailboxes. -/
theorem onlyMailboxes_push (machine : Machine Host) (id : MailboxId) (value : Value)
    (token : Option Mailbox.TokenId) : machine.OnlyMailboxes (machine.push id value token).1 :=
  onlyMailboxes_request ..

/-- A take changes no more than mailboxes. -/
theorem onlyMailboxes_take (machine : Machine Host) (id : MailboxId) :
    machine.OnlyMailboxes (machine.take id).1 :=
  onlyMailboxes_request ..

/-! ## Machines with the same mailboxes

What becomes of a request is settled by the mailboxes and the signals, whatever else there is on the
machine. -/

/-- The machine with other mailboxes. -/
def withMailboxes (machine : Machine Host) (mailboxes : Array (Mailbox Value)) : Machine Host :=
  { machine with mailboxes := mailboxes }

/-- The mailboxes and the signals are the same. -/
structure SameMailboxes {Other : Type} (machine : Machine Host) (other : Machine Other) : Prop where
  mailboxes : other.mailboxes = machine.mailboxes
  signals : other.signals = machine.signals

namespace SameMailboxes

variable {Other : Type} {machine : Machine Host} {other : Machine Other}

/-- A machine with the same mailboxes as another may be given those. -/
theorem withMailboxes (same : machine.SameMailboxes other) :
    other.withMailboxes machine.mailboxes = other := by
  rw [Machine.withMailboxes, ← same.mailboxes]

/-- The same mailbox may be put in the same place on both machines. -/
theorem withMailbox (same : machine.SameMailboxes other) (id : MailboxId)
    (mailbox : Mailbox Value) :
    (machine.withMailbox id mailbox).SameMailboxes (other.withMailbox id mailbox) :=
  ⟨congrArg (·.setIfInBounds id mailbox) same.mailboxes, same.signals⟩

/-- What it does to serve a mailbox depends on the mailboxes only. -/
theorem serve (same : machine.SameMailboxes other) (id : MailboxId) :
    other.serve id = other.withMailboxes (machine.serve id).mailboxes := by
  rw [Machine.serve, Machine.serve, same.mailboxes]
  cases machine.mailboxes[id]? with
  | none => exact same.withMailboxes.symm
  | some mailbox => exact (same.withMailbox id mailbox.serve.1).withMailboxes.symm

/-- Machines with the same mailboxes have the same after one is served. -/
theorem afterServe (same : machine.SameMailboxes other) (id : MailboxId) :
    (machine.serve id).SameMailboxes (other.serve id) := by
  obtain ⟨_, only⟩ := onlyMailboxes_serve machine id
  rw [same.serve]
  exact ⟨rfl, by rw [only]; exact same.signals⟩

/-- What it does to poll a request depends on the mailboxes only. -/
theorem poll (same : machine.SameMailboxes other) (id : MailboxId) (pending : Mailbox.Pending) :
    other.poll id pending =
      (other.withMailboxes (machine.poll id pending).1.mailboxes, (machine.poll id pending).2) := by
  rw [Machine.poll, Machine.poll, same.mailboxes, same.signals]
  cases machine.mailboxes[id]? with
  | none => exact congrArg (·, _) same.withMailboxes.symm
  | some mailbox =>
      exact congrArg (·, _) (same.withMailbox id (mailbox.poll _ pending).1).withMailboxes.symm

/-- What it does to make a request depends on the mailboxes only. -/
theorem request (same : machine.SameMailboxes other) (id : MailboxId)
    (token : Option Mailbox.TokenId)
    (issue : Mailbox Value → Mailbox Value × Mailbox.Issue Value) :
    other.request id token issue =
      (other.withMailboxes (machine.request id token issue).1.mailboxes,
        (machine.request id token issue).2) := by
  rw [Machine.request, Machine.request, same.mailboxes]
  cases machine.mailboxes[id]? with
  | none => exact congrArg (·, _) same.withMailboxes.symm
  | some mailbox =>
      have issued := same.withMailbox id (issue mailbox).1
      have served := issued.serve id
      dsimp only
      cases (issue mailbox).2.outcome with
      | some outcome => exact congrArg (·, _) served
      | none =>
          have polled := (issued.afterServe id).poll id ⟨(issue mailbox).2.id, token⟩
          dsimp only
          rw [polled, served]
          cases ((machine.withMailbox id (issue mailbox).1).serve id).poll id
              ⟨(issue mailbox).2.id, token⟩ with
          | mk final outcome => cases outcome <;> rfl

/-- What a push does depends on the mailboxes only. -/
theorem push (same : machine.SameMailboxes other) (id : MailboxId) (value : Value)
    (token : Option Mailbox.TokenId) :
    other.push id value token =
      (other.withMailboxes (machine.push id value token).1.mailboxes,
        (machine.push id value token).2) := by
  rw [Machine.push, Machine.push, same.signals]
  exact same.request id token _

end SameMailboxes

end CommandScript.Machine
