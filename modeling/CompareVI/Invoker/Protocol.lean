import CompareVI.Invoker.SingleCompare
import Mathlib.Data.List.Perm.Basic

/-!
# The file protocol of the runner invoker

Clients and `Start-InvokerLoop` talk through two directories. A client
(`Invoke-RunnerRequest`) creates and fills a request file named by a new guid, polls for
the response of that name, reads and removes it. The loop checks its sentinel, lists the
requests, and for each of them reads the file, executes the request, creates and fills
the response and removes the request; a request that ends the session also removes the
sentinel.

The model interleaves any number of clients with the loop, one file operation a step. A
file is empty when it is created and may be half written before it is full. What the
execution of a request yields and whether it is to stop the loop is a parameter of the
step.

A reader that meets a file that is not full gets nothing out of it. For a client that is
one more round of its loop, but `Start-InvokerLoop` reads the requests outside its error
handling: the empty text is `$null`, which has no property `id`, and the half text does
not parse. So the loop ends there, whatever its sentinel.

`protocolLaw_of_noHalfRead` says that this is all that can go wrong. Its proof follows one
guid at a time: `view` is what the state says of it, `Ok` what can be said, and every step
of the system but a listing changes the view of at most one guid.
-/

open Framework

namespace CompareVI.Invoker
namespace Protocol

/-! ### Files, calls and the loop -/

inductive Content where
  | empty
  | half
  | full
  deriving DecidableEq, Repr

structure JsonFile (α : Type) where
  value : α
  content : Content

/-- `Read-JsonFile`, with `none` where it throws or returns `$null`. -/
def readJsonFile {α : Type} (file : Option (JsonFile α)) : Option α :=
  match file with
  | some ⟨value, .full⟩ => some value
  | some ⟨_, .half⟩ | some ⟨_, .empty⟩ | none => none

/-- The progress of an `Invoke-RunnerRequest`. -/
inductive Stage where
  | start
  | created
  | waiting
  | reading
  | removing (rsp : Response)
  | returned (rsp : Response)
  | timedOut

structure Call where
  req : Request
  stage : Stage

def Call.result? (call : Call) : Option Response :=
  match call.stage with
  | .removing rsp | .returned rsp => some rsp
  | .start | .created | .waiting | .reading | .timedOut => none

def Call.isWritten (call : Call) : Bool :=
  match call.stage with
  | .start | .created => false
  | .waiting | .reading | .removing _ | .returned _ | .timedOut => true

/-- Whether a request removes the sentinel: before its own file is removed (a preview
with auto-stop), or after that (a compare with auto-stop, or `PhaseDone`). -/
inductive Stop where
  | no
  | early
  | late
  deriving DecidableEq, Repr

/-- `Start-InvokerLoop` at its next operation, with the name of the request file at hand
and the names still to come. -/
inductive Loop where
  | check
  | list
  | read (names : List String)
  | execute (name : String) (req : Request) (rest : List String)
  | create (name : String) (rsp : Response) (stop : Stop) (rest : List String)
  | fill (name : String) (rsp : Response) (stop : Stop) (rest : List String)
  | removeSentinelEarly (name : String) (rest : List String)
  | removeRequest (name : String) (stop : Stop) (rest : List String)
  | removeSentinel (rest : List String)
  | ended
  | crashed

def Loop.isOver : Loop → Bool
  | ended | crashed => true
  | check | list | read _ | execute _ _ _ | create _ _ _ _ | fill _ _ _ _
  | removeSentinelEarly _ _ | removeRequest _ _ _ | removeSentinel _ => false

/-- The two directories by file name, the sentinel, the calls by their guids (`ids` lists
these), and the loop. The rest is history: how often a request has been executed, the
responses written to it, and whether it was there, completely written, at a listing. -/
structure State where
  requests : String → Option (JsonFile Request)
  responses : String → Option (JsonFile Response)
  sentinel : Bool
  ids : List String
  calls : String → Option Call
  loop : Loop
  executed : String → ℕ
  answered : String → List Response
  due : String → Bool

def State.initial : State where
  requests := fun _ => none
  responses := fun _ => none
  sentinel := true
  ids := []
  calls := fun _ => none
  loop := .check
  executed := fun _ => 0
  answered := fun _ => []
  due := fun _ => false

/-! ### Steps -/

/-- An operation of a client: it creates its request file, writes a part of it and the
rest; it tests for the response, reads and removes it; its deadline passes. -/
inductive ClientStep where
  | create
  | flush
  | fill
  | poll
  | read
  | remove
  | timeout
  deriving DecidableEq, Repr

/-- An operation of the loop. The names that a listing yields come in some order. -/
inductive LoopStep where
  | check
  | list (names : List String)
  | read
  | execute (body : Except InvokerError Result) (stop : Stop)
  | create
  | flush
  | fill
  | removeRequest
  | removeSentinel

/-- One step of the system: a call starts, a client or the loop goes on, or the sentinel
is removed from outside. -/
inductive Event where
  | call (req : Request)
  | client (id : String) (a : ClientStep)
  | loop (a : LoopStep)
  | dropSentinel

namespace State

def setStage (s : State) (call : Call) (stage : Stage) : State :=
  { s with calls := Function.update s.calls call.req.id (some ⟨call.req, stage⟩) }

def setRequest (s : State) (name : String) (file : Option (JsonFile Request)) : State :=
  { s with requests := Function.update s.requests name file }

def setResponse (s : State) (name : String) (file : Option (JsonFile Response)) : State :=
  { s with responses := Function.update s.responses name file }

def setLoop (s : State) (loop : Loop) : State := { s with loop := loop }

def listing (s : State) : List String := s.ids.filter fun id => (s.requests id).isSome

def isWritten (s : State) (id : String) : Bool := (s.calls id).any Call.isWritten

end State

/-- `Invoke-RunnerRequest`. -/
def stepClient (s : State) (call : Call) (a : ClientStep) : Option State :=
  match a, call.stage with
  | .create, .start =>
    some ((s.setRequest call.req.id (some ⟨call.req, .empty⟩)).setStage call .created)
  | .flush, .created => some (s.setRequest call.req.id (some ⟨call.req, .half⟩))
  | .fill, .created =>
    some ((s.setRequest call.req.id (some ⟨call.req, .full⟩)).setStage call .waiting)
  | .poll, .waiting =>
    some (if (s.responses call.req.id).isSome then s.setStage call .reading else s)
  | .read, .reading =>
    match readJsonFile (s.responses call.req.id) with
    | none => some (s.setStage call .waiting)
    | some rsp => some (s.setStage call (.removing rsp))
  | .remove, .removing rsp =>
    some ((s.setResponse call.req.id none).setStage call (.returned rsp))
  | .timeout, .waiting => some (s.setStage call .timedOut)
  | _, _ => none

/-- `Start-InvokerLoop`, with or without a sentinel path. -/
def stepLoop (hasSentinel : Bool) (s : State) (a : LoopStep) : Option State :=
  match a, s.loop with
  | .check, .check =>
    some (s.setLoop (if hasSentinel && !s.sentinel then .ended else .list))
  | .list names, .list =>
    if names.Perm s.listing then
      some { s with loop := .read names, due := fun id => s.due id || s.isWritten id }
    else none
  | .read, .read [] => some (s.setLoop .check)
  | .read, .read (name :: rest) =>
    match readJsonFile (s.requests name) with
    | none => some (s.setLoop .crashed)
    | some req => some (s.setLoop (.execute name req rest))
  | .execute body stop, .execute name req rest =>
    some { s with
      executed := Function.update s.executed req.id (s.executed req.id + 1)
      loop := .create name ⟨req.id, req.verb, body⟩
        (if hasSentinel && body.isOk then stop else .no) rest }
  | .create, .create name rsp stop rest =>
    some ((s.setResponse rsp.id (some ⟨rsp, .empty⟩)).setLoop (.fill name rsp stop rest))
  | .flush, .fill _ rsp _ _ => some (s.setResponse rsp.id (some ⟨rsp, .half⟩))
  | .fill, .fill name rsp stop rest =>
    some { s.setResponse rsp.id (some ⟨rsp, .full⟩) with
      answered := Function.update s.answered rsp.id (s.answered rsp.id ++ [rsp])
      loop := if stop = .early then .removeSentinelEarly name rest
        else .removeRequest name stop rest }
  | .removeSentinel, .removeSentinelEarly name rest =>
    some { s with sentinel := false, loop := .removeRequest name .no rest }
  | .removeRequest, .removeRequest name stop rest =>
    some ((s.setRequest name none).setLoop
      (if stop = .late then .removeSentinel rest else .read rest))
  | .removeSentinel, .removeSentinel rest =>
    some { s with sentinel := false, loop := .read rest }
  | _, _ => none

def step (hasSentinel : Bool) (s : State) : Event → Option State
  | .call req =>
    if (s.calls req.id).isNone then
      some { s with
        ids := req.id :: s.ids
        calls := Function.update s.calls req.id (some ⟨req, .start⟩) }
    else none
  | .client id a => (s.calls id).bind fun call => stepClient s call a
  | .loop a => stepLoop hasSentinel s a
  | .dropSentinel => some { s with sentinel := false }

/-! ### What the protocol promises, and when -/

def IsAnswer (req : Request) (rsp : Response) : Prop := rsp.id = req.id ∧ rsp.verb = req.verb

/-- The request has been executed once and answered with one response, its own. -/
def Served (s : State) (req : Request) : Prop :=
  s.executed req.id = 1 ∧ ∃ rsp, s.answered req.id = [rsp] ∧ IsAnswer req rsp

/-- The request has been neither executed nor answered. -/
def Unserved (s : State) (req : Request) : Prop :=
  s.executed req.id = 0 ∧ s.answered req.id = []

/-- What the protocol promises of a state. -/
structure ProtocolLaw (s : State) : Prop where
  /-- The loop ends only after its sentinel was removed. -/
  sentinel : s.loop.isOver = true → s.sentinel = false
  /-- No request is executed or answered twice, and none with the response of another. -/
  once : ∀ id call, s.calls id = some call → s.executed id ≤ 1 ∧
    (s.answered id = [] ∨ ∃ rsp, s.answered id = [rsp] ∧ IsAnswer call.req rsp)
  /-- When the loop is over, what was completely written at its last listing has been
  executed once and answered once. -/
  served : s.loop.isOver = true → ∀ id call, s.calls id = some call → s.due id = true →
    Served s call.req
  /-- What was completely written only later has been served too, or left alone. -/
  late : s.loop.isOver = true → ∀ id call, s.calls id = some call → call.isWritten = true →
    Served s call.req ∨ Unserved s call.req
  /-- A client's call returns the complete response to its own request. -/
  returned : ∀ id call rsp, s.calls id = some call → call.stage = .returned rsp →
    IsAnswer call.req rsp ∧ s.answered id = [rsp]

def NoHalfRead (s : State) : Event → Prop
  | .loop .read =>
    match s.loop with
    | .read (name :: _) => (readJsonFile (s.requests name)).isSome = true
    | _ => True
  | _ => True

instance (s : State) (e : Event) : Decidable (NoHalfRead s e) := by
  unfold NoHalfRead
  split
  · split <;> infer_instance
  · infer_instance

/-! ### One guid -/

inductive Place where
  | nowhere
  | listed
  | executing (req : Request)
  | creating (rsp : Response)
  | filling (rsp : Response)
  | removing

def Loop.current : Loop → Option (String × Place)
  | execute name req _ => some (name, .executing req)
  | create name rsp _ _ => some (name, .creating rsp)
  | fill name rsp _ _ => some (name, .filling rsp)
  | removeSentinelEarly name _ => some (name, .removing)
  | removeRequest name _ _ => some (name, .removing)
  | check | list | read _ | removeSentinel _ | ended | crashed => none

def Loop.names : Loop → List String
  | read names => names
  | execute _ _ rest | create _ _ _ rest | fill _ _ _ rest | removeSentinelEarly _ rest
  | removeRequest _ _ rest | removeSentinel rest => rest
  | check | list | ended | crashed => []

def Loop.place (l : Loop) (id : String) : Place :=
  match l.current with
  | none => if id ∈ l.names then .listed else .nowhere
  | some (name, p) => if id = name then p else if id ∈ l.names then .listed else .nowhere

structure View where
  request : Option (JsonFile Request)
  response : Option (JsonFile Response)
  executed : ℕ
  answered : List Response
  due : Bool
  place : Place

def view (s : State) (id : String) : View where
  request := s.requests id
  response := s.responses id
  executed := s.executed id
  answered := s.answered id
  due := s.due id
  place := s.loop.place id

/-- No file yet. -/
structure Fresh (v : View) : Prop where
  request : v.request = none
  response : v.response = none
  executed : v.executed = 0
  answered : v.answered = []
  due : v.due = false
  place : v.place = .nowhere

/-- The request file is being written; the loop may have listed it. -/
structure Writing (req : Request) (v : View) : Prop where
  request : ∃ content, content ≠ .full ∧ v.request = some ⟨req, content⟩
  response : v.response = none
  executed : v.executed = 0
  answered : v.answered = []
  due : v.due = false
  place : v.place = .nowhere ∨ v.place = .listed

/-- The request file is full and has not been executed. -/
structure Pending (req : Request) (v : View) : Prop where
  request : v.request = some ⟨req, .full⟩
  response : v.response = none
  executed : v.executed = 0
  answered : v.answered = []

/-- The request has been executed and the response is not full yet. -/
structure Answering (req : Request) (rsp : Response) (v : View) : Prop where
  request : v.request = some ⟨req, .full⟩
  executed : v.executed = 1
  answered : v.answered = []
  answer : IsAnswer req rsp

/-- The request has been executed and answered; the client may have removed the
response. -/
structure Done (req : Request) (rsp : Response) (v : View) : Prop where
  response : v.response = none ∨ v.response = some ⟨rsp, .full⟩
  executed : v.executed = 1
  answered : v.answered = [rsp]
  answer : IsAnswer req rsp

/-- How far a request that is completely written has come, by the place of the loop. -/
def Progress (req : Request) (v : View) : Prop :=
  match v.place with
  | .nowhere => (Pending req v ∧ v.due = false) ∨ v.request = none ∧ ∃ rsp, Done req rsp v
  | .listed => Pending req v
  | .executing req' => req' = req ∧ Pending req v
  | .creating rsp => Answering req rsp v ∧ v.response = none
  | .filling rsp =>
    Answering req rsp v ∧ ∃ content, content ≠ .full ∧ v.response = some ⟨rsp, content⟩
  | .removing => v.request = some ⟨req, .full⟩ ∧ ∃ rsp, Done req rsp v

/-- What can be said of a guid. -/
inductive Ok (id : String) : Option Call → View → Prop where
  | unknown {v : View} (fresh : Fresh v) : Ok id none v
  | start {req : Request} {v : View} (hid : req.id = id) (fresh : Fresh v) :
    Ok id (some ⟨req, .start⟩) v
  | created {req : Request} {v : View} (hid : req.id = id) (writing : Writing req v) :
    Ok id (some ⟨req, .created⟩) v
  | written {call : Call} {v : View} (hid : call.req.id = id) (hwritten : call.isWritten = true)
    (progress : Progress call.req v)
    (result : ∀ rsp, call.result? = some rsp → v.answered = [rsp]) : Ok id (some call) v

/-- The invariant of the runs in which the loop meets no half-written request. -/
structure Inv (hasSentinel : Bool) (s : State) : Prop where
  ok : ∀ id, Ok id (s.calls id) (view s id)
  names : s.loop.names.Nodup
  current : ∀ name p, s.loop.current = some (name, p) → name ∉ s.loop.names
  ids : s.ids.Nodup
  known : ∀ id, id ∈ s.ids ↔ (s.calls id).isSome = true
  running : s.loop ≠ .crashed
  ended : s.loop = .ended → s.sentinel = false

variable {hasSentinel : Bool} {s t : State} {id : String}

theorem readJsonFile_eq_some {α : Type} {file : Option (JsonFile α)} {a : α}
    (h : readJsonFile file = some a) : file = some ⟨a, .full⟩ := by
  unfold readJsonFile at h
  split at h
  · rw [Option.some.inj h]
  · cases h
  · cases h
  · cases h

theorem Inv.initial : Inv hasSentinel State.initial where
  ok := fun _ => .unknown ⟨rfl, rfl, rfl, rfl, rfl, rfl⟩
  names := List.nodup_nil
  current := fun _ _ h => nomatch h
  ids := List.nodup_nil
  known := fun id => by simp [State.initial]
  running := Loop.noConfusion
  ended := fun h => nomatch h

/-- Where the loop is done with a request or about to execute it, the request is completely
written. -/
theorem Ok.progress {call : Option Call} {v : View} (h : Ok id call v)
    (hn : v.place ≠ .nowhere) (hl : v.place ≠ .listed) :
    ∃ c, call = some c ∧ c.req.id = id ∧ c.isWritten = true ∧ Progress c.req v ∧
      ∀ rsp, c.result? = some rsp → v.answered = [rsp] := by
  cases h with
  | unknown fresh => exact absurd fresh.place hn
  | start hid fresh => exact absurd fresh.place hn
  | created hid writing => exact absurd writing.place (by simp [hn, hl])
  | written hid hwritten progress result => exact ⟨_, rfl, hid, hwritten, progress, result⟩

section Progress

variable {req : Request} {v : View}

theorem progress_nowhere (h : v.place = .nowhere) :
    Progress req v ↔
      (Pending req v ∧ v.due = false) ∨ v.request = none ∧ ∃ rsp, Done req rsp v := by
  rw [Progress, h]

theorem progress_listed (h : v.place = .listed) : Progress req v ↔ Pending req v := by
  rw [Progress, h]

theorem progress_executing {req' : Request} (h : v.place = .executing req') :
    Progress req v ↔ req' = req ∧ Pending req v := by
  rw [Progress, h]

theorem progress_creating {rsp : Response} (h : v.place = .creating rsp) :
    Progress req v ↔ Answering req rsp v ∧ v.response = none := by
  rw [Progress, h]

theorem progress_filling {rsp : Response} (h : v.place = .filling rsp) :
    Progress req v ↔
      Answering req rsp v ∧ ∃ content, content ≠ .full ∧ v.response = some ⟨rsp, content⟩ := by
  rw [Progress, h]

theorem progress_removing (h : v.place = .removing) :
    Progress req v ↔ v.request = some ⟨req, .full⟩ ∧ ∃ rsp, Done req rsp v := by
  rw [Progress, h]

end Progress

variable {call : Call} {p : Place} {rsp : Response} {name : String}

theorem Progress.answered {req : Request} {v : View} (h : Progress req v)
    (hrsp : v.response = some ⟨rsp, .full⟩) : v.answered = [rsp] := by
  have hpending : Pending req v → v.answered = [rsp] := fun h => by
    rw [h.response] at hrsp
    cases hrsp
  have hdone : ∀ rsp', Done req rsp' v → v.answered = [rsp] := by
    intro rsp' h
    have := h.response
    rw [hrsp] at this
    simp only [reduceCtorEq, Option.some.injEq, JsonFile.mk.injEq, and_true, false_or] at this
    rw [h.answered, this]
  unfold Progress at h
  split at h
  · obtain ⟨h, -⟩ | ⟨-, rsp', h⟩ := h
    · exact hpending h
    · exact hdone rsp' h
  · exact hpending h
  · exact hpending h.2
  · rw [h.2] at hrsp
    cases hrsp
  · obtain ⟨-, content, hne, h⟩ := h
    rw [h] at hrsp
    exact absurd (JsonFile.mk.inj (Option.some.inj hrsp)).2 hne
  · obtain ⟨-, rsp', h⟩ := h
    exact hdone rsp' h

theorem Progress.remove {req : Request} {v : View} (h : Progress req v)
    (hrsp : v.answered = [rsp]) : Progress req { v with response := none } := by
  have hnot : v.answered ≠ [] := by
    rw [hrsp]
    exact List.cons_ne_nil _ _
  obtain ⟨request, response, executed, answered, due, place⟩ := v
  have hdone : ∀ rsp', Done req rsp' ⟨request, response, executed, answered, due, place⟩ →
      Done req rsp' ⟨request, none, executed, answered, due, place⟩ :=
    fun rsp' h => ⟨.inl rfl, h.executed, h.answered, h.answer⟩
  cases place with
  | nowhere =>
    obtain ⟨h, -⟩ | ⟨hreq, rsp', h⟩ := h
    · exact absurd h.answered hnot
    · exact .inr ⟨hreq, rsp', hdone rsp' h⟩
  | listed => exact absurd (Pending.answered h) hnot
  | executing req' => exact absurd h.2.answered hnot
  | creating rsp' => exact absurd h.1.answered hnot
  | filling rsp' => exact absurd h.1.answered hnot
  | removing =>
    obtain ⟨hreq, rsp', h⟩ := h
    exact ⟨hreq, rsp', hdone rsp' h⟩

theorem Ok.fresh {v : View} (h : Ok id (some call) v) (hstage : call.stage = .start) :
    Fresh v := by
  cases h with
  | start hid fresh => exact fresh
  | created hid writing => cases hstage
  | written hid hwritten progress result => simp [Call.isWritten, hstage] at hwritten

theorem Ok.writing {v : View} (h : Ok id (some call) v) (hstage : call.stage = .created) :
    Writing call.req v := by
  cases h with
  | start hid fresh => cases hstage
  | created hid writing => exact writing
  | written hid hwritten progress result => simp [Call.isWritten, hstage] at hwritten

theorem Ok.of_isWritten {v : View} (h : Ok id (some call) v) (hw : call.isWritten = true) :
    Progress call.req v ∧ ∀ rsp, call.result? = some rsp → v.answered = [rsp] := by
  cases h with
  | start hid fresh => cases hw
  | created hid writing => cases hw
  | written hid hwritten progress result => exact ⟨progress, result⟩

/-! ### A step of a client -/

/-- A step that is about one call keeps the invariant if it keeps what is said of its
guid. -/
theorem Inv.of_call (hs : Inv hasSentinel s) (id : String) (hloop : t.loop = s.loop)
    (hsentinel : t.sentinel = s.sentinel) (hids : t.ids = s.ids)
    (hcalls : ∀ i, i ≠ id → t.calls i = s.calls i) (hsome : (s.calls id).isSome = true)
    (hsome' : (t.calls id).isSome = true) (hview : ∀ i, i ≠ id → view t i = view s i)
    (hok : Ok id (t.calls id) (view t id)) : Inv hasSentinel t where
  ok := by
    intro i
    by_cases hi : i = id
    · rw [hi]
      exact hok
    · rw [hcalls i hi, hview i hi]
      exact hs.ok i
  names := hloop ▸ hs.names
  current := hloop ▸ hs.current
  ids := hids ▸ hs.ids
  known := by
    intro i
    rw [hids, hs.known i]
    by_cases hi : i = id
    · rw [hi, hsome, hsome']
    · rw [hcalls i hi]
  running := hloop ▸ hs.running
  ended := by
    rw [hloop, hsentinel]
    exact hs.ended

variable {p' : Place} {stage : Stage}

theorem Inv.of_stage (hs : Inv hasSentinel s) (hcall : s.calls call.req.id = some call)
    (hloop : t.loop = s.loop) (hsentinel : t.sentinel = s.sentinel) (hids : t.ids = s.ids)
    (hcalls : t.calls = Function.update s.calls call.req.id (some ⟨call.req, stage⟩))
    (hview : ∀ i, i ≠ call.req.id → view t i = view s i)
    (hok : Ok call.req.id (some ⟨call.req, stage⟩) (view t call.req.id)) :
    Inv hasSentinel t := by
  refine hs.of_call call.req.id hloop hsentinel hids ?_ ?_ ?_ hview ?_
  · intro i hi
    rw [hcalls, Function.update_of_ne hi]
  · rw [hcall]
    rfl
  · rw [hcalls, Function.update_self]
    rfl
  · rw [hcalls, Function.update_self]
    exact hok

theorem view_setRequest_of_ne {file : Option (JsonFile Request)} (h : id ≠ name) :
    view (s.setRequest name file) id = view s id := by
  simp [view, State.setRequest, h]

theorem view_setResponse_of_ne {file : Option (JsonFile Response)} (h : id ≠ name) :
    view (s.setResponse name file) id = view s id := by
  simp [view, State.setResponse, h]

section

variable (hs : Inv hasSentinel s)

include hs

theorem Inv.goOn (hcall : s.calls call.req.id = some call) (hw : call.isWritten = true)
    (hw' : (⟨call.req, stage⟩ : Call).isWritten = true)
    (hres : ∀ rsp, (⟨call.req, stage⟩ : Call).result? = some rsp →
      s.answered call.req.id = [rsp]) : Inv hasSentinel (s.setStage call stage) := by
  have hok := hs.ok call.req.id
  rw [hcall] at hok
  exact hs.of_stage hcall rfl rfl rfl rfl (fun _ _ => rfl)
    (.written rfl hw' (hok.of_isWritten hw).1 hres)

/-- **One step of a client.** -/
theorem Inv.stepClient {a : ClientStep} (hcall : s.calls call.req.id = some call)
    (hstep : stepClient s call a = some t) : Inv hasSentinel t := by
  have hok := hs.ok call.req.id
  rw [hcall] at hok
  unfold Protocol.stepClient at hstep
  split at hstep
  · next hstage =>
    rw [← Option.some.inj hstep]
    have fresh := hok.fresh hstage
    refine hs.of_stage hcall rfl rfl rfl rfl (fun i hi => view_setRequest_of_ne hi) ?_
    exact .created rfl ⟨⟨.empty, Content.noConfusion, Function.update_self ..⟩, fresh.response,
      fresh.executed, fresh.answered, fresh.due, .inl fresh.place⟩
  · next hstage =>
    rw [← Option.some.inj hstep]
    have writing := hok.writing hstage
    have hsame : s.calls = Function.update s.calls call.req.id (some ⟨call.req, .created⟩) := by
      rw [← hstage, ← hcall, Function.update_eq_self]
    refine hs.of_stage hcall rfl rfl rfl hsame (fun i hi => view_setRequest_of_ne hi) ?_
    exact .created rfl ⟨⟨.half, Content.noConfusion, Function.update_self ..⟩, writing.response,
      writing.executed, writing.answered, writing.due, writing.place⟩
  · next hstage =>
    rw [← Option.some.inj hstep]
    have writing := hok.writing hstage
    refine hs.of_stage hcall rfl rfl rfl rfl (fun i hi => view_setRequest_of_ne hi) ?_
    refine .written rfl rfl ?_ fun rsp h => nomatch h
    have pending : Pending call.req (view (s.setRequest call.req.id (some ⟨call.req, .full⟩))
        call.req.id) :=
      ⟨Function.update_self .., writing.response, writing.executed, writing.answered⟩
    obtain hplace | hplace := writing.place
    · refine (progress_nowhere ?_).mpr (.inl ⟨pending, writing.due⟩)
      exact hplace
    · refine (progress_listed ?_).mpr pending
      exact hplace
  · next hstage =>
    rw [← Option.some.inj hstep]
    split
    · exact hs.goOn hcall (by rw [Call.isWritten, hstage]) rfl fun rsp h => nomatch h
    · exact hs
  · next hstage =>
    have hw : call.isWritten = true := by rw [Call.isWritten, hstage]
    split at hstep
    · rw [← Option.some.inj hstep]
      exact hs.goOn hcall hw rfl fun rsp h => nomatch h
    · next rsp hread =>
      rw [← Option.some.inj hstep]
      refine hs.goOn hcall hw rfl fun rsp' h => ?_
      obtain rfl : rsp = rsp' := Option.some.inj h
      exact (hok.of_isWritten hw).1.answered (readJsonFile_eq_some hread)
  · next rsp hstage =>
    rw [← Option.some.inj hstep]
    have hw : call.isWritten = true := by rw [Call.isWritten, hstage]
    obtain ⟨progress, result⟩ := hok.of_isWritten hw
    have hrsp := result rsp (by rw [Call.result?, hstage])
    have hview : view (s.setResponse call.req.id none) call.req.id =
        { view s call.req.id with response := none } := by
      simp [view, State.setResponse]
    have hother : ∀ i, i ≠ call.req.id → view (s.setResponse call.req.id none) i = view s i :=
      fun i hi => view_setResponse_of_ne hi
    refine hs.of_stage hcall rfl rfl rfl rfl hother ?_
    refine .written rfl rfl ?_ fun rsp' h => ?_
    · have := progress.remove hrsp
      rw [← hview] at this
      exact this
    · obtain rfl : rsp = rsp' := Option.some.inj h
      exact hrsp
  · next hstage =>
    rw [← Option.some.inj hstep]
    exact hs.goOn hcall (by rw [Call.isWritten, hstage]) rfl fun rsp h => nomatch h
  · cases hstep

/-! ### A step of the loop -/

theorem Inv.of_loop (id : String) (hids : t.ids = s.ids) (hcalls : t.calls = s.calls)
    (hview : ∀ i, i ≠ id → view t i = view s i) (hok : Ok id (s.calls id) (view t id))
    (hnames : t.loop.names.Nodup)
    (hcurrent : ∀ name p, t.loop.current = some (name, p) → name ∉ t.loop.names)
    (hrunning : t.loop.isOver = false) : Inv hasSentinel t where
  ok := by
    intro i
    rw [hcalls]
    by_cases hi : i = id
    · rw [hi]
      exact hok
    · rw [hview i hi]
      exact hs.ok i
  names := hnames
  current := hcurrent
  ids := hids ▸ hs.ids
  known := by
    rw [hids, hcalls]
    exact hs.known
  running := by
    intro h
    rw [h] at hrunning
    cases hrunning
  ended := by
    intro h
    rw [h] at hrunning
    cases hrunning

theorem Inv.of_place {l : Loop} {sentinel : Bool} (hcurrent : l.current = s.loop.current)
    (hnames : l.names = s.loop.names) (hrunning : l ≠ .crashed)
    (hended : l = .ended → sentinel = false) :
    Inv hasSentinel { s with sentinel := sentinel, loop := l } where
  ok := by
    intro i
    have hplace : l.place i = s.loop.place i := by
      rw [Loop.place, Loop.place, hcurrent, hnames]
    have hview : view { s with sentinel := sentinel, loop := l } i = view s i := by
      simp only [view, hplace]
    rw [hview]
    exact hs.ok i
  names := hnames ▸ hs.names
  current := by
    intro name p h
    rw [hcurrent] at h
    rw [hnames]
    exact hs.current name p h
  ids := hs.ids
  known := hs.known
  running := hrunning
  ended := hended

theorem Inv.mem_listing : id ∈ s.listing ↔ (s.requests id).isSome = true := by
  rw [State.listing, List.mem_filter, and_iff_right_iff_imp]
  intro h
  rw [hs.known]
  -- a file is one of a call
  have hok := hs.ok id
  cases hcall : s.calls id with
  | some call => rfl
  | none =>
    rw [hcall] at hok
    cases hok with
    | unknown fresh =>
      rw [show s.requests id = none from fresh.request] at h
      cases h

/-- **A listing.** Every request file that is there is listed, and those that are full are
due. -/
theorem Inv.list {names : List String} (hloop : s.loop = .list) (hperm : names.Perm s.listing) :
    Inv hasSentinel { s with loop := .read names, due := fun i => s.due i || s.isWritten i } where
  ok := by
    intro i
    have hok := hs.ok i
    have hplace : (view s i).place = .nowhere := by
      simp [view, hloop, Loop.place, Loop.current, Loop.names]
    have hmem : i ∈ names ↔ (s.requests i).isSome = true := by
      rw [hperm.mem_iff, hs.mem_listing]
    have hlisted : (s.requests i).isSome = true → (Loop.read names).place i = .listed := by
      intro h
      simp [Loop.place, Loop.current, Loop.names, hmem, h]
    have hnowhere : s.requests i = none → (Loop.read names).place i = .nowhere := by
      intro h
      simp [Loop.place, Loop.current, Loop.names, hmem, h]
    have hdue : ∀ call, s.calls i = some call → s.isWritten i = call.isWritten := by
      intro call h
      rw [State.isWritten, h, Option.any_some]
    cases hcall : s.calls i with
    | none =>
      rw [hcall] at hok
      obtain ⟨fresh⟩ := hok
      have hw : s.isWritten i = false := by rw [State.isWritten, hcall, Option.any_none]
      refine .unknown ⟨fresh.request, fresh.response, fresh.executed, fresh.answered, ?_,
        hnowhere fresh.request⟩
      simp only [view, hw, Bool.or_false]
      exact fresh.due
    | some call =>
      rw [hcall] at hok
      have hw := hdue call hcall
      cases hok with
      | start hid fresh =>
        refine .start hid ⟨fresh.request, fresh.response, fresh.executed, fresh.answered, ?_,
          hnowhere fresh.request⟩
        simp only [view, hw, Call.isWritten, Bool.or_false]
        exact fresh.due
      | created hid writing =>
        obtain ⟨content, hne, hreq⟩ := writing.request
        refine .created hid ⟨writing.request, writing.response, writing.executed,
          writing.answered, ?_, .inr (hlisted ?_)⟩
        · simp only [view, hw, Call.isWritten, Bool.or_false]
          exact writing.due
        · rw [show s.requests i = _ from hreq]
          rfl
      | written hid hwritten progress result =>
        refine .written hid hwritten ?_ result
        obtain ⟨pending, -⟩ | ⟨hnone, rsp, done⟩ := (progress_nowhere hplace).mp progress
        · refine (progress_listed (hlisted ?_)).mpr ⟨pending.request, pending.response,
            pending.executed, pending.answered⟩
          rw [show s.requests i = _ from pending.request]
          rfl
        · exact (progress_nowhere (hnowhere hnone)).mpr
            (.inr ⟨hnone, rsp, done.response, done.executed, done.answered, done.answer⟩)
  names := hperm.nodup_iff.mpr (hs.ids.filter _)
  current := fun _ _ h => nomatch h
  ids := hs.ids
  known := hs.known
  running := Loop.noConfusion
  ended := fun h => nomatch h

/-- **A read of a full request.** -/
theorem Inv.read {rest : List String} {req : Request} (hloop : s.loop = .read (name :: rest))
    (hread : readJsonFile (s.requests name) = some req) :
    Inv hasSentinel (s.setLoop (.execute name req rest)) := by
  have hnodup := hs.names
  rw [hloop] at hnodup
  obtain ⟨hnot, hrest⟩ := List.nodup_cons.mp hnodup
  have hplace : (view s name).place = .listed := by
    simp [view, hloop, Loop.place, Loop.current, Loop.names]
  have hfull := readJsonFile_eq_some hread
  refine hs.of_loop name rfl rfl ?_ ?_ hrest ?_ rfl
  · intro i hi
    have hsame : (Loop.execute name req rest).place i = (Loop.read (name :: rest)).place i := by
      by_cases hmem : i ∈ rest <;> simp [Loop.place, Loop.current, Loop.names, hi, hmem]
    simp only [view, State.setLoop, hloop, hsame]
  · have hok := hs.ok name
    cases hcall : s.calls name with
    | none =>
      rw [hcall] at hok
      obtain ⟨fresh⟩ := hok
      rw [fresh.place] at hplace
      cases hplace
    | some call =>
      rw [hcall] at hok
      cases hok with
      | start hid fresh =>
        rw [fresh.place] at hplace
        cases hplace
      | created hid writing =>
        obtain ⟨content, hne, hreq⟩ := writing.request
        rw [show (view s name).request = s.requests name from rfl, hfull] at hreq
        exact absurd (JsonFile.mk.inj (Option.some.inj hreq)).2.symm hne
      | written hid hwritten progress result =>
        have pending := (progress_listed hplace).mp progress
        have hreq := pending.request
        rw [show (view s name).request = s.requests name from rfl, hfull] at hreq
        have hplace' : (view (s.setLoop (.execute name req rest)) name).place =
            .executing req := by
          simp [view, State.setLoop, Loop.place, Loop.current]
        refine .written hid hwritten ((progress_executing hplace').mpr ⟨?_, pending.request,
          pending.response, pending.executed, pending.answered⟩) result
        exact (JsonFile.mk.inj (Option.some.inj hreq)).1
  · intro name' p h
    obtain ⟨rfl, -⟩ := Prod.mk.inj (Option.some.inj h)
    exact hnot

theorem Inv.at_hand (hcur : s.loop.current = some (name, p)) :
    (view s name).place = p ∧ ∃ c, s.calls name = some c ∧ c.req.id = name ∧
      c.isWritten = true ∧ Progress c.req (view s name) ∧
        ∀ rsp, c.result? = some rsp → (view s name).answered = [rsp] := by
  have hplace : (view s name).place = p := by
    rw [view, Loop.place, hcur]
    exact if_pos rfl
  refine ⟨hplace, (hs.ok name).progress ?_ ?_⟩ <;> rw [hplace] <;> rintro rfl <;>
    cases hl : s.loop <;> rw [hl] at hcur <;> simp [Loop.current] at hcur

theorem Inv.of_at_hand (hcur : s.loop.current = some (name, p))
    (hcur' : t.loop.current = some (name, p')) (hnames : t.loop.names = s.loop.names)
    (hids : t.ids = s.ids) (hcalls : t.calls = s.calls)
    (hrequests : ∀ i, i ≠ name → t.requests i = s.requests i)
    (hresponses : ∀ i, i ≠ name → t.responses i = s.responses i)
    (hexecuted : ∀ i, i ≠ name → t.executed i = s.executed i)
    (hanswered : ∀ i, i ≠ name → t.answered i = s.answered i) (hdue : t.due = s.due)
    (hcall : s.calls name = some call) (hid : call.req.id = name) (hw : call.isWritten = true)
    (progress : (view t name).place = p' → Progress call.req (view t name))
    (result : ∀ rsp, call.result? = some rsp → t.answered name = [rsp]) : Inv hasSentinel t := by
  have hok : Ok name (s.calls name) (view t name) := by
    rw [hcall]
    refine .written hid hw (progress ?_) result
    rw [view, Loop.place, hcur']
    exact if_pos rfl
  refine hs.of_loop name hids hcalls ?_ hok (hnames ▸ hs.names) ?_ ?_
  · intro i hi
    simp only [view, hrequests i hi, hresponses i hi, hexecuted i hi, hanswered i hi, hdue,
      Loop.place, hcur, hcur', hnames, if_neg hi]
  · intro name' p'' h
    rw [hcur', Option.some.injEq, Prod.mk.injEq] at h
    rw [← h.1, hnames]
    exact hs.current name p hcur
  · cases hloop : t.loop <;> rw [hloop] at hcur' <;> first | rfl | cases hcur'

/-- **One step of the loop.** -/
theorem Inv.stepLoop {a : LoopStep} (hG : NoHalfRead s (.loop a))
    (hstep : stepLoop hasSentinel s a = some t) : Inv hasSentinel t := by
  unfold Protocol.stepLoop at hstep
  split at hstep
  · next hloop =>
    rw [← Option.some.inj hstep]
    cases hcond : hasSentinel && !s.sentinel with
    | false =>
      exact hs.of_place (by rw [hloop]; rfl) (by rw [hloop]; rfl) Loop.noConfusion
        fun h => nomatch h
    | true =>
      have hsentinel : s.sentinel = false := by
        rw [Bool.and_eq_true] at hcond
        simpa using hcond.2
      exact hs.of_place (by rw [hloop]; rfl) (by rw [hloop]; rfl) Loop.noConfusion
        fun _ => hsentinel
  · next names hloop =>
    split_ifs at hstep with hperm
    rw [← Option.some.inj hstep]
    exact hs.list hloop hperm
  · next hloop =>
    rw [← Option.some.inj hstep]
    exact hs.of_place (by rw [hloop]; rfl) (by rw [hloop]; rfl) Loop.noConfusion
      fun h => nomatch h
  · next name rest hloop =>
    split at hstep
    · next hread =>
      simp only [NoHalfRead, hloop, hread] at hG
      cases hG
    · next req hread =>
      rw [← Option.some.inj hstep]
      exact hs.read hloop hread
  · next body stop name req rest hloop =>
    rw [← Option.some.inj hstep]
    have hcur : s.loop.current = some (name, .executing req) := by rw [hloop]; rfl
    obtain ⟨hplace, call, hcall, hid, hw, progress, result⟩ := hs.at_hand hcur
    obtain ⟨rfl, pending⟩ := (progress_executing hplace).mp progress
    subst hid
    refine hs.of_at_hand hcur rfl (by rw [hloop]; rfl) rfl rfl (fun _ _ => rfl)
      (fun _ _ => rfl) (fun i hi => Function.update_of_ne hi _ _) (fun _ _ => rfl) rfl hcall rfl
      hw (fun hp => ?_) result
    refine (progress_creating hp).mpr ⟨⟨pending.request, ?_, pending.answered, rfl, rfl⟩,
      pending.response⟩
    simp only [view, Function.update_self]
    exact congrArg (· + 1) pending.executed
  · next name rsp stop rest hloop =>
    rw [← Option.some.inj hstep]
    have hcur : s.loop.current = some (name, .creating rsp) := by rw [hloop]; rfl
    obtain ⟨hplace, call, hcall, hid, hw, progress, result⟩ := hs.at_hand hcur
    obtain ⟨answering, -⟩ := (progress_creating hplace).mp progress
    have hrsp : rsp.id = name := answering.answer.1.trans hid
    refine hs.of_at_hand hcur rfl (by rw [hloop]; rfl) rfl rfl (fun _ _ => rfl)
      (fun i hi => Function.update_of_ne (hrsp ▸ hi) _ _) (fun _ _ => rfl) (fun _ _ => rfl) rfl
      hcall hid hw (fun hp => ?_) result
    refine (progress_filling hp).mpr ⟨⟨answering.request, answering.executed, answering.answered,
      answering.answer⟩, .empty, Content.noConfusion, ?_⟩
    simp [view, State.setResponse, State.setLoop, hrsp]
  · next name rsp stop rest hloop =>
    rw [← Option.some.inj hstep]
    have hcur : s.loop.current = some (name, .filling rsp) := by rw [hloop]; rfl
    obtain ⟨hplace, call, hcall, hid, hw, progress, result⟩ := hs.at_hand hcur
    obtain ⟨answering, -⟩ := (progress_filling hplace).mp progress
    have hrsp : rsp.id = name := answering.answer.1.trans hid
    refine hs.of_at_hand hcur hcur rfl rfl rfl (fun _ _ => rfl)
      (fun i hi => Function.update_of_ne (hrsp ▸ hi) _ _) (fun _ _ => rfl) (fun _ _ => rfl) rfl
      hcall hid hw (fun hp => ?_) result
    refine (progress_filling hp).mpr ⟨⟨answering.request, answering.executed, answering.answered,
      answering.answer⟩, .half, Content.noConfusion, ?_⟩
    simp [view, State.setResponse, hrsp]
  · next name rsp stop rest hloop =>
    rw [← Option.some.inj hstep]
    have hcur : s.loop.current = some (name, .filling rsp) := by rw [hloop]; rfl
    obtain ⟨hplace, call, hcall, hid, hw, progress, result⟩ := hs.at_hand hcur
    obtain ⟨answering, -⟩ := (progress_filling hplace).mp progress
    have hrsp : rsp.id = name := answering.answer.1.trans hid
    have hnone : s.answered name = [] := answering.answered
    have hcur' : (if stop = .early then Loop.removeSentinelEarly name rest
        else Loop.removeRequest name stop rest).current = some (name, .removing) := by
      split <;> rfl
    refine hs.of_at_hand hcur hcur' (by rw [hloop]; split <;> rfl) rfl rfl (fun _ _ => rfl)
      (fun i hi => Function.update_of_ne (hrsp ▸ hi) _ _) (fun _ _ => rfl)
      (fun i hi => Function.update_of_ne (hrsp ▸ hi) _ _) rfl hcall hid hw (fun hp => ?_) ?_
    · refine (progress_removing hp).mpr ⟨answering.request, rsp, .inr ?_, answering.executed, ?_,
        answering.answer⟩
      · simp [view, State.setResponse, hrsp]
      · simp [view, State.setResponse, hrsp, hnone]
    · intro rsp' h
      have := result rsp' h
      rw [answering.answered] at this
      cases this
  · next name rest hloop =>
    rw [← Option.some.inj hstep]
    exact hs.of_place (by rw [hloop]; rfl) (by rw [hloop]; rfl) Loop.noConfusion fun _ => rfl
  · next name stop rest hloop =>
    rw [← Option.some.inj hstep]
    have hcur : s.loop.current = some (name, .removing) := by rw [hloop]; rfl
    have hnot : name ∉ rest := by
      have := hs.current name _ hcur
      rw [hloop] at this
      exact this
    obtain ⟨hplace, call, hcall, hid, hw, progress, result⟩ := hs.at_hand hcur
    obtain ⟨-, rsp, done⟩ := (progress_removing hplace).mp progress
    have hnames : (if stop = .late then Loop.removeSentinel rest
        else Loop.read rest).names = rest := by
      split <;> rfl
    have hcurrent : (if stop = .late then Loop.removeSentinel rest
        else Loop.read rest).current = none := by
      split <;> rfl
    refine hs.of_loop name rfl rfl ?_ ?_ ?_ ?_ ?_
    · intro i hi
      simp only [view, State.setLoop, State.setRequest, Function.update_of_ne hi, Loop.place,
        hcurrent, hnames, hcur, if_neg hi]
      rw [hloop]
      rfl
    · rw [hcall]
      refine .written hid hw ((progress_nowhere ?_).mpr (.inr ⟨Function.update_self .., rsp,
        done.response, done.executed, done.answered, done.answer⟩)) result
      simp only [view, State.setLoop, Loop.place, hcurrent, hnames, if_neg hnot]
    · have := hs.names
      rw [hloop] at this
      simp only [State.setLoop, hnames]
      exact this
    · intro name' p h
      simp only [State.setLoop, hcurrent] at h
      cases h
    · split <;> rfl
  · next rest hloop =>
    rw [← Option.some.inj hstep]
    exact hs.of_place (by rw [hloop]; rfl) (by rw [hloop]; rfl) Loop.noConfusion fun _ => rfl
  · cases hstep

/-- **One step.** -/
theorem Inv.of_step {e : Event} (hG : NoHalfRead s e) (hstep : step hasSentinel s e = some t) :
    Inv hasSentinel t := by
  cases e with
  | call req =>
    simp only [step] at hstep
    split_ifs at hstep with hnew
    rw [← Option.some.inj hstep]
    have hnone : s.calls req.id = none := Option.isNone_iff_eq_none.mp hnew
    have hok := hs.ok req.id
    rw [hnone] at hok
    obtain ⟨fresh⟩ := hok
    refine ⟨?_, hs.names, hs.current, ?_, ?_, hs.running, hs.ended⟩
    · intro i
      by_cases hi : i = req.id
      · subst hi
        simp only [Function.update_self]
        exact .start rfl ⟨fresh.request, fresh.response, fresh.executed, fresh.answered,
          fresh.due, fresh.place⟩
      · simp only [Function.update_of_ne hi]
        exact hs.ok i
    · refine List.nodup_cons.mpr ⟨fun hmem => ?_, hs.ids⟩
      rw [hs.known, hnone] at hmem
      cases hmem
    · intro i
      rw [List.mem_cons, hs.known]
      by_cases hi : i = req.id
      · simp [hi]
      · simp [hi]
  | client id a =>
    obtain ⟨call, hcall, hclient⟩ := Option.bind_eq_some_iff.mp hstep
    have hid : call.req.id = id := by
      have hok := hs.ok id
      rw [hcall] at hok
      cases hok with
      | start hid fresh => exact hid
      | created hid writing => exact hid
      | written hid hwritten progress result => exact hid
    subst hid
    exact hs.stepClient hcall hclient
  | loop a => exact hs.stepLoop hG hstep
  | dropSentinel =>
    rw [← Option.some.inj hstep]
    exact hs.of_place rfl rfl hs.running fun _ => rfl

end

/-! ### The law -/

theorem Pending.unserved {req : Request} (h : Pending req (view s req.id)) : Unserved s req :=
  ⟨h.executed, h.answered⟩

theorem Done.served {req : Request} (h : Done req rsp (view s req.id)) :
    Served s req :=
  ⟨h.executed, rsp, h.answered, h.answer⟩

theorem Progress.once {req : Request} {v : View} (h : Progress req v) :
    v.executed ≤ 1 ∧ (v.answered = [] ∨ ∃ rsp, v.answered = [rsp] ∧ IsAnswer req rsp) := by
  have hpending : Pending req v →
      v.executed ≤ 1 ∧ (v.answered = [] ∨ ∃ rsp, v.answered = [rsp] ∧ IsAnswer req rsp) :=
    fun h => ⟨by rw [h.executed]; exact Nat.zero_le 1, .inl h.answered⟩
  have hanswering : ∀ rsp, Answering req rsp v →
      v.executed ≤ 1 ∧ (v.answered = [] ∨ ∃ rsp, v.answered = [rsp] ∧ IsAnswer req rsp) :=
    fun rsp h => ⟨Nat.le_of_eq h.executed, .inl h.answered⟩
  have hdone : ∀ rsp, Done req rsp v →
      v.executed ≤ 1 ∧ (v.answered = [] ∨ ∃ rsp, v.answered = [rsp] ∧ IsAnswer req rsp) :=
    fun rsp h => ⟨Nat.le_of_eq h.executed, .inr ⟨rsp, h.answered, h.answer⟩⟩
  unfold Progress at h
  split at h
  · obtain ⟨h, -⟩ | ⟨-, rsp, h⟩ := h
    · exact hpending h
    · exact hdone rsp h
  · exact hpending h
  · exact hpending h.2
  · exact hanswering _ h.1
  · exact hanswering _ h.1
  · obtain ⟨-, rsp, h⟩ := h
    exact hdone rsp h

theorem Progress.isAnswer {req : Request} {v : View} (h : Progress req v)
    (hrsp : v.answered = [rsp]) : IsAnswer req rsp := by
  obtain ⟨-, hnil | ⟨rsp', hone, hanswer⟩⟩ := h.once
  · rw [hrsp] at hnil
    cases hnil
  · rw [hrsp] at hone
    obtain rfl := (List.cons.inj hone).1
    exact hanswer

/-- **The invariant gives the law.** -/
theorem Inv.law (hs : Inv hasSentinel s) : ProtocolLaw s := by
  have hended : s.loop.isOver = true → s.loop = .ended := by
    intro h
    cases hloop : s.loop with
    | crashed => exact absurd hloop hs.running
    | ended => rfl
    | check | list | read | execute | create | fill | removeSentinelEarly | removeRequest
    | removeSentinel => rw [hloop] at h; cases h
  have hnowhere : s.loop.isOver = true → ∀ i, (view s i).place = .nowhere := by
    intro h i
    simp [view, hended h, Loop.place, Loop.current, Loop.names]
  refine ⟨fun h => hs.ended (hended h), ?_, ?_, ?_, ?_⟩
  · intro id call hcall
    have hok := hs.ok id
    rw [hcall] at hok
    have hzero : (view s id).executed = 0 → (view s id).answered = [] → s.executed id ≤ 1 ∧
        (s.answered id = [] ∨ ∃ rsp, s.answered id = [rsp] ∧ IsAnswer call.req rsp) :=
      fun he ha => ⟨Nat.le_trans (Nat.le_of_eq he) (Nat.zero_le 1), .inl ha⟩
    cases hok with
    | start hid fresh => exact hzero fresh.executed fresh.answered
    | created hid writing => exact hzero writing.executed writing.answered
    | written hid hwritten progress result => exact progress.once
  · intro hover id call hcall hdue
    have hok := hs.ok id
    rw [hcall] at hok
    have hnot : (view s id).due = false → Served s call.req := fun h => by
      rw [view, hdue] at h
      cases h
    cases hok with
    | start hid fresh => exact hnot fresh.due
    | created hid writing => exact hnot writing.due
    | written hid hwritten progress result =>
      subst hid
      obtain ⟨-, hdue'⟩ | ⟨-, rsp, done⟩ := (progress_nowhere (hnowhere hover _)).mp progress
      · exact hnot hdue'
      · exact done.served
  · intro hover id call hcall hw
    have hok := hs.ok id
    rw [hcall] at hok
    cases hok with
    | start hid fresh => cases hw
    | created hid writing => cases hw
    | written hid hwritten progress result =>
      subst hid
      obtain ⟨pending, -⟩ | ⟨-, rsp, done⟩ := (progress_nowhere (hnowhere hover _)).mp progress
      · exact .inr pending.unserved
      · exact .inl done.served
  · intro id call rsp hcall hstage
    have hok := hs.ok id
    rw [hcall] at hok
    have hw : call.isWritten = true := by rw [Call.isWritten, hstage]
    obtain ⟨progress, result⟩ := hok.of_isWritten hw
    have hone := result rsp (by rw [Call.result?, hstage])
    exact ⟨progress.isAnswer hone, hone⟩

/-- **The protocol.** In every run in which the loop finds every request file that it reads
full, the law holds of every state reached. -/
theorem protocolLaw_of_noHalfRead (hasSentinel : Bool) (es : List Event)
    (hG : Guarded (step hasSentinel) NoHalfRead State.initial es) (pre post : List Event)
    (hes : es = pre ++ post) (t : State)
    (hrun : run (step hasSentinel) State.initial pre = some t) : ProtocolLaw t := by
  subst hes
  have hpre := (guarded_append.mp hG).1
  exact (run_invariant (fun _ _ _ hs hG hstep => Inv.of_step hs hG hstep) Inv.initial hpre
    hrun).law

/-! ### A half-written request -/

def pingRequest (id : String) : Request := ⟨id, .ping, ⟨none, none, none, none, false⟩⟩

/-- A client creates its request file, and the loop lists and reads it before it is
filled. -/
def emptyRead : List Event :=
  [.call (pingRequest "a"), .client "a" .create, .loop .check, .loop (.list ["a"]), .loop .read]

/-- The loop ends with its sentinel in place. -/
theorem not_protocolLaw_emptyRead :
    ∃ t, run (step true) State.initial emptyRead = some t ∧ ¬ ProtocolLaw t := by
  refine ⟨_, rfl, fun h => ?_⟩
  exact absurd (h.sentinel rfl) (by decide)

def servedPing : List Event :=
  [.call (pingRequest "a"), .client "a" .create, .client "a" .fill, .loop .check,
    .loop (.list ["a"]), .loop .read, .loop (.execute (.ok .pong) .no), .loop .create,
    .client "a" .poll, .client "a" .read, .loop .fill, .client "a" .poll, .client "a" .read,
    .client "a" .remove, .loop .removeRequest, .dropSentinel, .loop .read, .loop .check]

theorem protocolLaw_servedPing :
    ∃ t, run (step true) State.initial servedPing = some t ∧ t.loop = .ended ∧
      ProtocolLaw t := by
  obtain ⟨t, ht, hloop⟩ : ∃ t, run (step true) State.initial servedPing = some t ∧
      t.loop = .ended := ⟨_, rfl, rfl⟩
  exact ⟨t, ht, hloop, protocolLaw_of_noHalfRead true servedPing (by decide +kernel) servedPing []
    (List.append_nil _).symm t ht⟩

end Protocol
end CompareVI.Invoker
