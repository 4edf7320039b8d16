import Casework.Json.Decoder
import Casework.Time.Stamp

/-!
# Signals

An external input to a running execution: its value selects a transition.
-/

namespace Casework

structure Signal where
  id : String
  name : String
  /-- What transitions are matched against. -/
  value : String
  receivedAt : Instant
deriving DecidableEq, Repr

namespace Signal

def decisionName : String := "decision"

/-- The value of the decision that stands in when none arrives in time. -/
def timeoutValue : String := "timeout"

/-- A decision received at `now`, under an id of its own. -/
def decision (value id : String) (now : Instant) : Signal :=
  ⟨id, decisionName, value, now⟩

/-- The decision that stands in when none arrives in time. -/
def timeout (id : String) (now : Instant) : Signal :=
  decision timeoutValue id now

def decoder : Decoder Signal :=
  .record "Signal" <|
    mk <$> Slots.required "id" Decoder.text
      <*> Slots.required "name" Decoder.text
      <*> Slots.required "value" Decoder.text
      <*> Slots.required "received_at" Instant.decoder

instance : ToValue Signal :=
  ⟨fun s => .obj [
    ("id", toValue s.id),
    ("name", toValue s.name),
    ("value", toValue s.value),
    ("received_at", toValue s.receivedAt)]⟩

end Signal

inductive Disposition where
  /-- Stored. -/
  | accepted
  /-- Discarded, because a signal was stored already. -/
  | dropped
deriving DecidableEq, Repr

end Casework
