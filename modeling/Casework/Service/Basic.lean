import Casework.Execution.Host

/-!
# The case service

A host with a registry of executions, one for each case id.

* `Service` : the host and the registry;
* `Service.start`, `Service.submit`, `Service.cancel` : operations on one case;
* `Service.resume`, `Service.resumeAll` : rebuilding cases from the journal;
* `Service.list`, `Service.waitForCompletion` : queries.

An id that was registered once stays registered.  An execution that is not finished is never
replaced.
-/

namespace Casework

/-- A host with one execution registered for each case id. -/
structure Service where
  host : Host
  registered : Table Nat := []

/-- The answer to a submitted decision. -/
structure Receipt where
  caseId : String
  status : String
  message : String
deriving DecidableEq, Repr

namespace Receipt

def decoder : Decoder Receipt :=
  .record "DecisionReceipt" <|
    mk <$> Slots.required "caseId" Decoder.text
      <*> Slots.required "status" Decoder.text
      <*> Slots.required "message" Decoder.text

instance : ToValue Receipt :=
  ⟨fun r => .obj [
    ("caseId", toValue r.caseId), ("status", toValue r.status), ("message", toValue r.message)]⟩

def of (caseId decision : String) : Disposition → Receipt
  | .accepted =>
      ⟨caseId, "Signal Sent", "Decision '" ++ decision ++ "' was successfully sent to the case."⟩
  | .dropped =>
      ⟨caseId, "Signal Dropped",
        "Decision '" ++ decision ++ "' was dropped: the case already holds a pending decision."⟩

end Receipt

/-- A line of the overview of all cases. -/
structure CaseSummary where
  caseId : String
  status : ExecutionStatus
  /-- The status label of the case, once it is opened. -/
  caseStatus : Option String
deriving DecidableEq, Repr

namespace Service

def new (host : Host) : Service := ⟨host, []⟩

def place? (s : Service) (caseId : String) : Option Nat :=
  s.registered.get? caseId

/-- The place of the execution of a case, or the complaint that there is none. -/
def place (s : Service) (caseId : String) : Except Error Nat :=
  match s.place? caseId with
  | some i => .ok i
  | none => .error (.caseNotFound caseId)

def execution? (s : Service) (caseId : String) : Option Execution :=
  (s.place? caseId).bind s.host.execution?

/-- The execution of a case, or the complaint that there is none. -/
def execution (s : Service) (caseId : String) : Except Error Execution :=
  match s.execution? caseId with
  | some x => .ok x
  | none => .error (.caseNotFound caseId)

def generatedId (freshId : String) : String := "case-" ++ freshId

/-- Starts a case, under a generated id if none is given. -/
def start (s : Service) (caseId : Option String) (name version : String) (payload : Value) :
    Except Error (Service × String) :=
  let caseId := caseId.getD (generatedId s.host.readings.freshId)
  if s.registered.contains caseId then .error (.caseAlreadyExists caseId)
  else
    let (host, i) := s.host.start caseId name version payload
    .ok (⟨host, s.registered.insert caseId i⟩, caseId)

/-- The case as last published; none while it is not opened. -/
def caseById (s : Service) (caseId : String) : Except Error (Option Case) :=
  (s.execution caseId).map Execution.published

def status (s : Service) (caseId : String) : Except Error ExecutionStatus :=
  (s.execution caseId).map (·.status)

def submit (s : Service) (caseId decision : String) : Except Error (Service × Receipt) := do
  let i ← s.place caseId
  let (host, disposition) ← s.host.decide i decision
  pure ({ s with host := host }, .of caseId decision disposition)

def cancel (s : Service) (caseId : String) : Except Error Service := do
  let i ← s.place caseId
  pure { s with host := s.host.cancel i }

/-- Whether a case has an execution that is not finished. -/
def isRunning (s : Service) (caseId : String) : Bool :=
  (s.execution? caseId).any fun x => !x.isFinished

/-- Rebuilds a case from the journal, in place of an execution that is finished. -/
def resume (s : Service) (caseId : String) : Except Error Service :=
  if s.isRunning caseId then .error (.caseAlreadyExists caseId)
  else do
    let (host, i) ← s.host.resume caseId
    pure ⟨host, s.registered.insert caseId i⟩

/-- Whether entries tell of a case that has come to its end. -/
def isClosed (entries : List JournalEntry) : Bool :=
  entries.getLast?.any JournalEntry.isFinal

/-- Resumes those of the given cases that are not registered and have not come to their end.
Entries that cannot be read end the attempt, a case that cannot be resumed is passed over. -/
def resumeEach (s : Service) : List String → Service × Except Error (List String)
  | [] => (s, .ok [])
  | caseId :: rest =>
      if s.registered.contains caseId then resumeEach s rest
      else
        match s.host.ledger.journal.load caseId with
        | .error e => (s, .error e)
        | .ok entries =>
            -- A case that has ended is left alone, so it is not registered either.
            if isClosed entries then resumeEach s rest
            else
              match s.resume caseId with
              | .error _ => resumeEach s rest
              | .ok s =>
                  let (s, resumed) := resumeEach s rest
                  (s, resumed.map (caseId :: ·))

/-- Resumes every case in the journal that is not registered and has not come to its end, and says
which ones these were. -/
def resumeAll (s : Service) : Service × Except Error (List String) :=
  let (s, resumed) := s.resumeEach s.host.ledger.journal.caseIds
  ({ s with host := s.host.report (.span "case_service_resume_all") }, resumed)

/-- All cases in ascending order of their ids. -/
def list (s : Service) : List CaseSummary :=
  s.registered.keys.filterMap fun caseId =>
    (s.execution? caseId).map fun x => ⟨caseId, x.status, x.published.map Case.status⟩

/-- What the completion of a finished execution comes to. -/
def completionOf (caseId : String) (x : Execution) : Except Error Case :=
  match x.status with
  | .completed =>
      match x.published with
      | some k => .ok k
      | none => .error (.caseNotFound caseId)
  | .failed text => .error (.executionFailed text)
  | .cancelled => .error .cancelled
  | .running => .error (.notRunning caseId)

/-- Waits, with time passing up to the limit, until a case is finished; none if it is not. -/
def waitForCompletion (s : Service) (limit : Nat) (caseId : String) :
    Service × Option (Except Error Case) :=
  match s.place caseId with
  | .error e => (s, some (.error e))
  | .ok i =>
      let (host, reached) :=
        s.host.runUntil limit fun h => (h.execution? i).any Execution.isFinished
      let s := { s with host := host }
      (s, if reached then (host.execution? i).map (completionOf caseId) else none)

end Service
end Casework
