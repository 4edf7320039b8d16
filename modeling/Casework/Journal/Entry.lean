import Casework.Signal.Basic

/-!
# Journal entries

What an execution observes of the outside world, and how it ends.

* `JournalEntry` : the entries, with their form in documents;
* `JournalEntry.time` : when an entry was made.

In a document the kind of an entry is its field `event`.  A sequence may stand for an entry too:
its kind first, then the other fields in order.
-/

namespace Casework

inductive JournalEntry where
  /-- The execution began. -/
  | started (caseId processName processVersion : String) (payload : Value) (time : Instant)
  /-- A step consumed a signal. -/
  | signalConsumed (stepId : String) (signal : Signal)
  /-- A collaborator answered. -/
  | activityCompleted (stepId : String) (output : Value) (time : Instant)
  /-- The execution reached its end. -/
  | completed (status : String) (time : Instant)
  /-- The execution failed. -/
  | failed (error : String) (time : Instant)
deriving DecidableEq, Repr

namespace JournalEntry

inductive Kind where
  | started
  | signalConsumed
  | activityCompleted
  | completed
  | failed
deriving DecidableEq, Repr

namespace Kind

def name : Kind → String
  | .started => "started"
  | .signalConsumed => "signal_consumed"
  | .activityCompleted => "activity_completed"
  | .completed => "completed"
  | .failed => "failed"

/-- All kinds, in order of declaration. -/
def all : List Kind := [.started, .signalConsumed, .activityCompleted, .completed, .failed]

def ofName? (n : String) : Option Kind :=
  all.find? fun k => k.name == n

/-- The names of the kinds are read back. -/
theorem ofName?_name (k : Kind) : ofName? k.name = some k := by
  cases k <;> decide

end Kind

def kind : JournalEntry → Kind
  | .started .. => .started
  | .signalConsumed .. => .signalConsumed
  | .activityCompleted .. => .activityCompleted
  | .completed .. => .completed
  | .failed .. => .failed

/-- When an entry was made; for a signal, when it was received. -/
def time : JournalEntry → Instant
  | .started _ _ _ _ t => t
  | .signalConsumed _ s => s.receivedAt
  | .activityCompleted _ _ t => t
  | .completed _ t => t
  | .failed _ t => t

def stepId? : JournalEntry → Option String
  | .signalConsumed s _ => some s
  | .activityCompleted s _ _ => some s
  | _ => none

def isFinal (e : JournalEntry) : Bool :=
  e.kind == .completed || e.kind == .failed

instance : ToValue JournalEntry :=
  ⟨fun e => .obj <| ("event", .str e.kind.name) ::
    match e with
    | .started caseId name version payload t => [
        ("case_id", toValue caseId),
        ("process_name", toValue name),
        ("process_version", toValue version),
        ("payload", payload),
        ("at", toValue t)]
    | .signalConsumed stepId signal => [("step_id", toValue stepId), ("signal", toValue signal)]
    | .activityCompleted stepId output t => [
        ("step_id", toValue stepId), ("output", output), ("at", toValue t)]
    | .completed status t => [("status", toValue status), ("at", toValue t)]
    | .failed error t => [("error", toValue error), ("at", toValue t)]⟩

/-! ## Reading -/

def variant {α : Type} (title : String) (s : Slots α) : Decoder α :=
  .recordWith ("struct variant JournalEntry::" ++ title)
    (Decoder.elementsText s.shapes.length ++ " in sequence") s

def bodyDecoder : Kind → Decoder JournalEntry
  | .started => variant "Started" <|
      JournalEntry.started <$> Slots.required "case_id" Decoder.text
        <*> Slots.required "process_name" Decoder.text
        <*> Slots.required "process_version" Decoder.text
        <*> Slots.required "payload" Decoder.free
        <*> Slots.required "at" Instant.decoder
  | .signalConsumed => variant "SignalConsumed" <|
      JournalEntry.signalConsumed <$> Slots.required "step_id" Decoder.text
        <*> Slots.required "signal" Signal.decoder
  | .activityCompleted => variant "ActivityCompleted" <|
      JournalEntry.activityCompleted <$> Slots.required "step_id" Decoder.text
        <*> Slots.required "output" Decoder.free
        <*> Slots.required "at" Instant.decoder
  | .completed => variant "Completed" <|
      JournalEntry.completed <$> Slots.required "status" Decoder.text
        <*> Slots.required "at" Instant.decoder
  | .failed => variant "Failed" <|
      JournalEntry.failed <$> Slots.required "error" Decoder.text
        <*> Slots.required "at" Instant.decoder

def decodeKind : Value → Except Fault Kind
  | .str s =>
      match Kind.ofName? s with
      | some k => .ok k
      | none => .error (.unknownVariant s (Kind.all.map Kind.name))
  | v => .error (.wrongType v "variant identifier")

def splitTag (tag : Option Kind) : Fields → Except Fault (Option Kind × Fields)
  | [] => .ok (tag, [])
  | (key, v) :: rest =>
      if key = "event" then
        if tag.isSome then .error (.duplicateField "event")
        else do
          let k ← decodeKind v
          splitTag (some k) rest
      else do
        let (k, others) ← splitTag tag rest
        pure (k, (key, v) :: others)

def decoder : Decoder JournalEntry where
  schema := .free
  decode
    | .obj fields => do
        match ← splitTag none fields with
        | (some k, others) => (bodyDecoder k).decode (.obj others)
        | (none, _) => .error (.missingField "event")
    | .arr [] => .error (.missingField "event")
    | .arr (v :: others) => do
        let k ← decodeKind v
        (bodyDecoder k).decode (.arr others)
    | v => .error (.wrongType v "internally tagged enum JournalEntry")

end JournalEntry
end Casework
