import CommandScript.Mailbox.Policy

/-!
# Settings

Every machine has three default channels and makes further ones on request. For each of the three,
and for all the further ones together, a capacity and an overflow policy are set; the depth of the
request queues is set once for all. An `Assignment` gives one of these nine settings a value.
-/

namespace CommandScript

/-- The size of a buffer and what happens when it is full. -/
structure ChannelSettings where
  capacity : Nat
  policy : Mailbox.Policy
deriving DecidableEq, Repr

/-- What a channel is made with when nothing is set. -/
def ChannelSettings.default : ChannelSettings :=
  ⟨100, .block⟩

/-- The channels that have settings. The last stands for all channels made on request. -/
inductive Channel where
  | stdout
  | stderr
  | stdin
  | further
deriving DecidableEq, Repr

/-- All settings of a machine. -/
structure Settings where
  channels : Channel → ChannelSettings
  requests : Nat

/-- The settings when nothing is set. -/
def Settings.default : Settings :=
  ⟨fun _ => ChannelSettings.default, 64⟩

/-- One setting with its value. -/
inductive Assignment where
  | capacity (channel : Channel) (value : Nat)
  | policy (channel : Channel) (value : Mailbox.Policy)
  | requests (value : Nat)
deriving DecidableEq, Repr

/-- The settings with those of one channel changed. -/
def Settings.update (settings : Settings) (channel : Channel)
    (change : ChannelSettings → ChannelSettings) : Settings :=
  { settings with
    channels := fun other =>
      if other = channel then change (settings.channels other) else settings.channels other }

/-- A change to one channel leaves the others. -/
theorem Settings.channels_update_of_ne (settings : Settings) {channel other : Channel}
    (change : ChannelSettings → ChannelSettings) (hne : other ≠ channel) :
    (settings.update channel change).channels other = settings.channels other := by
  simp [Settings.update, hne]

theorem Settings.channels_update_self (settings : Settings) (channel : Channel)
    (change : ChannelSettings → ChannelSettings) :
    (settings.update channel change).channels channel = change (settings.channels channel) := by
  simp [Settings.update]

/-- The settings after an assignment. -/
def Settings.assign (settings : Settings) : Assignment → Settings
  | .capacity channel value => settings.update channel fun old => { old with capacity := value }
  | .policy channel value => settings.update channel fun old => { old with policy := value }
  | .requests value => { settings with requests := value }

end CommandScript
