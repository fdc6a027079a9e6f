import EastApi.Lib.Chan
import EastApi.Lib.GoText
import EastApi.Lib.Run

/-! `StreamScannerHandler`: the goroutines that read an upstream stream, handle its data and ping
the client, and the function itself, which waits for one of them.  The scanner and the data handler
put a token back when they leave, the ping goroutine does not. -/

namespace EastApi.Stream

open Go Run Option

/-- What the scanner does with a line. -/
inductive Line
  | skip
  | data (text : String)
  | done

def readLine (line : String) : Line :=
  let hasPrefix (part s : String) := part.toList.isPrefixOf s.toList
  if len line < 6 then .skip
  else if !hasPrefix "data:" line && !hasPrefix "[DONE]" line then .skip
  else
    let data := trimSpace (String.ofList (line.toList.drop 5))
    if data = "" then .skip
    else if hasPrefix "[DONE]" data then .done
    else .data data

/-- Where `StreamScannerHandler` itself is. -/
inductive Main
  /-- At the select. -/
  | waiting
  | cancelling
  /-- In the deferred function, before its token is sent. -/
  | stopping
  /-- Waiting for the other goroutines, for at most five seconds. -/
  | joining
  | returned
deriving DecidableEq

inductive Handler
  | receiving
  | locking (data : String)
  /-- In `dataHandler`, with the mutex. -/
  | handling (data : String)
  /-- In the deferred function, before its token is sent. -/
  | signalling
  | exited
deriving DecidableEq

inductive Scanner
  | scanning
  | checking (line : String)
  | sending (data : String)
  /-- In the deferred function, before `dataChan` is closed. -/
  | closing
  /-- In the deferred function, before its token is sent. -/
  | signalling
  | exited
deriving DecidableEq

inductive Ping
  | waiting
  /-- At the inner select, while a ping is written. -/
  | pinging
  /-- In the deferred function after a panic. -/
  | signalling
  | exited
deriving DecidableEq

/-- The goroutine that writes one ping. -/
inductive Writer
  | idle | locking | writing
  | wrote (ok : Bool)
deriving DecidableEq

inductive Owner
  | handler | writer
deriving DecidableEq

structure System where
  /-- The lines that the upstream still sends before it ends. -/
  lines : List String
  stopChan : Chan Unit 3
  dataChan : Chan String 10
  writeMutex : Option Owner
  (ctxDone clientGone : Bool)
  main : Main
  handler : Handler
  scanner : Scanner
  ping : Ping
  writer : Writer

def start (lines : List String) (pingEnabled : Bool) : System where
  lines := lines
  stopChan := .make
  dataChan := .make
  writeMutex := none
  ctxDone := false
  clientGone := false
  main := .waiting
  handler := .receiving
  scanner := .scanning
  ping := if pingEnabled then .waiting else .exited
  writer := .idle

inductive Label
  | mainStop | timeout | mainGone | cancel | mainSend | join | joinTimeout
  | disconnect
  | receive | handlerLock | handled (stop : Bool) | handlerPanic | handlerSend
  | scan | scanPanic | checkStop | checkCtx | checkGone | pass
  | send | sendCtx | sendStop | close | scannerSend
  | tick | writerLock | written (ok : Bool) | pingDone
  | pingGiveUp | pingCtx | pingStop | pingGone | pingPanic | pingSend
deriving DecidableEq

namespace System

def take (s : System) : Option System := s.stopChan.recv.map fun r => { s with stopChan := r.2 }

def signal (s : System) : Option System :=
  (s.stopChan.safeSend ()).map fun stopChan => { s with stopChan := stopChan }

def allDone (s : System) : Bool :=
  (s.handler = .signalling || s.handler = .exited) &&
  (s.scanner = .signalling || s.scanner = .exited) &&
  (s.ping = .signalling || s.ping = .exited)

def step (s : System) : Label → Option System
  -- the function
  | .mainStop =>
    if s.main = .waiting then s.take.map fun s => { s with main := .cancelling } else none
  | .timeout => if s.main = .waiting then some { s with main := .cancelling } else none
  | .mainGone =>
    if s.main = .waiting ∧ s.clientGone then some { s with main := .cancelling } else none
  | .cancel =>
    if s.main = .cancelling then some { s with main := .stopping, ctxDone := true } else none
  | .mainSend =>
    if s.main = .stopping then s.signal.map fun s => { s with main := .joining } else none
  | .join =>
    if s.main = .joining ∧ s.allDone then
      some { s with main := .returned, stopChan := s.stopChan.close }
    else none
  | .joinTimeout =>
    if s.main = .joining then some { s with main := .returned, stopChan := s.stopChan.close }
    else none
  | .disconnect => some { s with clientGone := true }
  -- the data handler
  | .receive =>
    if s.handler = .receiving then
      match s.dataChan.recv with
      | some (some data, dataChan) =>
        some { s with handler := .locking data, dataChan := dataChan }
      | some (none, _) => some { s with handler := .signalling }
      | none => none
    else none
  | .handlerLock =>
    match s.handler, s.writeMutex with
    | .locking data, none => some { s with handler := .handling data, writeMutex := some .handler }
    | _, _ => none
  | .handled stop =>
    match s.handler with
    | .handling _ =>
      some { s with handler := if stop then .signalling else .receiving, writeMutex := none }
    | _ => none
  | .handlerPanic =>
    match s.handler with
    -- the mutex stays locked
    | .handling _ => some { s with handler := .signalling }
    | _ => none
  | .handlerSend =>
    if s.handler = .signalling then s.signal.map fun s => { s with handler := .exited } else none
  -- the scanner
  | .scan =>
    if s.scanner = .scanning then
      match s.lines with
      | line :: lines => some { s with scanner := .checking line, lines := lines }
      | [] => some { s with scanner := .closing }
    else none
  | .scanPanic => if s.scanner = .scanning then some { s with scanner := .closing } else none
  | .checkStop =>
    match s.scanner with
    | .checking _ => s.take.map fun s => { s with scanner := .closing }
    | _ => none
  | .checkCtx =>
    match s.scanner with
    | .checking _ => if s.ctxDone then some { s with scanner := .closing } else none
    | _ => none
  | .checkGone =>
    match s.scanner with
    | .checking _ => if s.clientGone then some { s with scanner := .closing } else none
    | _ => none
  | .pass =>
    match s.scanner with
    | .checking line =>
      if s.take.isSome || s.ctxDone || s.clientGone then none
      else
        match readLine line with
        | .skip => some { s with scanner := .scanning }
        | .data data => some { s with scanner := .sending data }
        | .done => some { s with scanner := .closing }
    | _ => none
  | .send =>
    match s.scanner with
    | .sending data => (s.dataChan.send data).map fun dataChan =>
        { s with scanner := .scanning, dataChan := dataChan }
    | _ => none
  | .sendCtx =>
    match s.scanner with
    | .sending _ => if s.ctxDone then some { s with scanner := .closing } else none
    | _ => none
  | .sendStop =>
    match s.scanner with
    | .sending _ => s.take.map fun s => { s with scanner := .closing }
    | _ => none
  | .close =>
    if s.scanner = .closing then
      some { s with scanner := .signalling, dataChan := s.dataChan.close }
    else none
  | .scannerSend =>
    if s.scanner = .signalling then s.signal.map fun s => { s with scanner := .exited } else none
  -- the ping goroutine
  | .tick =>
    if s.ping = .waiting ∧ s.writer = .idle then
      some { s with ping := .pinging, writer := .locking }
    else none
  | .writerLock =>
    if s.writer = .locking ∧ s.writeMutex = none then
      some { s with writer := .writing, writeMutex := some .writer }
    else none
  | .written ok =>
    if s.writer = .writing then some { s with writer := .wrote ok, writeMutex := none } else none
  | .pingDone =>
    match s.ping, s.writer with
    | .pinging, .wrote ok =>
      some { s with writer := .idle, ping := if ok then .waiting else .exited }
    | _, _ => none
  | .pingGiveUp =>
    if s.ping = .waiting ∨ s.ping = .pinging then some { s with ping := .exited } else none
  | .pingCtx =>
    if (s.ping = .waiting ∨ s.ping = .pinging) ∧ s.ctxDone then some { s with ping := .exited }
    else none
  | .pingStop =>
    if s.ping = .waiting ∨ s.ping = .pinging then s.take.map fun s => { s with ping := .exited }
    else none
  | .pingGone =>
    if s.ping = .waiting ∧ s.clientGone then some { s with ping := .exited } else none
  | .pingPanic =>
    if s.ping = .waiting ∨ s.ping = .pinging then some { s with ping := .signalling } else none
  | .pingSend =>
    if s.ping = .signalling then s.signal.map fun s => { s with ping := .exited } else none

end System

def Taken (ch ch' : Chan Unit 3) : Prop :=
  ch'.closed = ch.closed ∧ (ch.closed = false → ch.buffer = () :: ch'.buffer)

def Sent (ch ch' : Chan Unit 3) : Prop :=
  ch'.closed = ch.closed ∧ (ch.closed = false → ch'.buffer ≠ [])

def Scanner.Running : Scanner → Prop
  | .scanning | .checking _ | .sending _ => True
  | _ => False

def Scanner.Leaving (s : Scanner) : Prop := s = .closing ∨ s = .signalling

namespace System

variable {s t : System}

theorem of_take (h : s.take.map f = some t) :
    ∃ ch, Taken s.stopChan ch ∧ f { s with stopChan := ch } = t := by
  simp only [take, map_map, map_eq_some_iff] at h
  obtain ⟨⟨r, ch⟩, received, rfl⟩ := h
  obtain ⟨closed, taken⟩ := Chan.recv_eq_some received
  refine ⟨ch, ⟨closed, fun isOpen => ?_⟩, rfl⟩
  cases r with
  | some u => exact taken
  | none => exact absurd taken.2.1 (by simp [isOpen])

theorem of_signal (h : s.signal.map f = some t) :
    ∃ ch, Sent s.stopChan ch ∧ f { s with stopChan := ch } = t := by
  simp only [signal, map_map, map_eq_some_iff] at h
  obtain ⟨ch, sent, rfl⟩ := h
  refine ⟨ch, ⟨Chan.safeSend_closed sent, fun isOpen => ?_⟩, rfl⟩
  rw [(Chan.safeSend_eq_some sent isOpen).1]
  simp

/-- The steps by what they change.  The one that is not here is a token taken by the ping
goroutine. -/
inductive Effect (s : System) : System → Prop
  | leave : s.main = .waiting → Effect s { s with main := .cancelling }
  | leaveByToken {ch : Chan Unit 3} : s.main = .waiting → Taken s.stopChan ch →
      Effect s { s with main := .cancelling, stopChan := ch }
  | cancel : s.main = .cancelling → Effect s { s with main := .stopping, ctxDone := true }
  | stop {ch : Chan Unit 3} : s.main = .stopping → Sent s.stopChan ch →
      Effect s { s with main := .joining, stopChan := ch }
  | return : s.main = .joining →
      Effect s { s with main := .returned, stopChan := s.stopChan.close }
  | disconnect : Effect s { s with clientGone := true }
  | receive {data : String} {ch : Chan String 10} : s.handler = .receiving →
      ch.closed = s.dataChan.closed → Effect s { s with handler := .locking data, dataChan := ch }
  | lock {data : String} : s.handler = .locking data → s.writeMutex = none →
      Effect s { s with handler := .handling data, writeMutex := some .handler }
  | handled {next : Handler} : next ≠ .exited →
      Effect s { s with handler := next, writeMutex := none }
  | handlerLeaves : s.handler ≠ .exited → Effect s { s with handler := .signalling }
  | handlerSignals {ch : Chan Unit 3} : s.handler = .signalling → Sent s.stopChan ch →
      Effect s { s with handler := .exited, stopChan := ch }
  | scan {next : Scanner} {lines : List String} {ch : Chan String 10} : s.scanner.Running →
      next.Running → ch.closed = s.dataChan.closed →
      Effect s { s with scanner := next, lines := lines, dataChan := ch }
  | scannerLeaves : s.scanner.Running → Effect s { s with scanner := .closing }
  | scannerLeavesByToken {ch : Chan Unit 3} : s.scanner.Running → Taken s.stopChan ch →
      Effect s { s with scanner := .closing, stopChan := ch }
  | close : s.scanner = .closing →
      Effect s { s with scanner := .signalling, dataChan := s.dataChan.close }
  | scannerSignals {ch : Chan Unit 3} : s.scanner = .signalling → Sent s.stopChan ch →
      Effect s { s with scanner := .exited, stopChan := ch }
  | ping {ping : Ping} {writer : Writer} : (s.writer = .writing → writer = .writing) →
      Effect s { s with ping := ping, writer := writer }
  | writerLock : s.writeMutex = none →
      Effect s { s with writer := .writing, writeMutex := some .writer }
  | written {ok : Bool} : s.writer = .writing →
      Effect s { s with writer := .wrote ok, writeMutex := none }
  | pingSignals {ch : Chan Unit 3} : Sent s.stopChan ch →
      Effect s { s with ping := .exited, stopChan := ch }

variable {a : Label}

theorem effect (hs : s.step a = some t) (other : a ≠ .pingStop) :
    Effect s t := by
  have taken {f : System → System} (goes : ∀ ch, Taken s.stopChan ch →
      Effect s (f { s with stopChan := ch })) (hs : s.take.map f = some t) : Effect s t := by
    obtain ⟨ch, token, rfl⟩ := of_take hs
    exact goes ch token
  have sent {f : System → System} (goes : ∀ ch, Sent s.stopChan ch →
      Effect s (f { s with stopChan := ch })) (hs : s.signal.map f = some t) : Effect s t := by
    obtain ⟨ch, token, rfl⟩ := of_signal hs
    exact goes ch token
  revert hs
  fun_cases step s a <;> intro hs <;> try cases hs
  next here => exact taken (fun _ => .leaveByToken here) hs
  next here => exact .leave here
  next here => exact .leave here.1
  next here => exact .cancel here
  next here => exact sent (fun _ => .stop here) hs
  next here => exact .return here.1
  next here => exact .return here
  next => exact .disconnect
  next here _ _ received => exact .receive here (Chan.recv_eq_some received).1
  next here _ _ => exact .handlerLeaves (by simp [here])
  next free here => exact .lock here free
  next stop _ _ => exact .handled (by cases stop <;> simp)
  next here => exact .handlerLeaves (by simp [here])
  next here => exact sent (fun _ => .handlerSignals here) hs
  next here _ _ _ => exact .scan (by simp [here, Scanner.Running]) trivial rfl
  next here _ => exact .scannerLeaves (by simp [here, Scanner.Running])
  next here => exact .scannerLeaves (by simp [here, Scanner.Running])
  next here => exact taken (fun _ => .scannerLeavesByToken (by simp [here, Scanner.Running])) hs
  next here _ => exact .scannerLeaves (by simp [here, Scanner.Running])
  next here _ => exact .scannerLeaves (by simp [here, Scanner.Running])
  next here _ _ => exact .scan (by simp [here, Scanner.Running]) trivial rfl
  next here _ _ _ => exact .scan (by simp [here, Scanner.Running]) trivial rfl
  next here _ _ => exact .scannerLeaves (by simp [here, Scanner.Running])
  next here =>
    obtain ⟨ch, passed, rfl⟩ := map_eq_some_iff.mp hs
    exact .scan (by simp [here, Scanner.Running]) trivial (Chan.send_eq_some passed).2.2
  next here _ => exact .scannerLeaves (by simp [here, Scanner.Running])
  next here => exact taken (fun _ => .scannerLeavesByToken (by simp [here, Scanner.Running])) hs
  next here => exact .close here
  next here => exact sent (fun _ => .scannerSignals here) hs
  next here => exact .ping (by simp [here.2])
  next here => exact .writerLock here.2
  next here => exact .written here
  next wrote _ => exact .ping (by simp [wrote])
  next => exact .ping fun h => h
  next => exact .ping fun h => h
  next => exact absurd rfl other
  next => exact .ping fun h => h
  next => exact .ping fun h => h
  next => exact sent (fun _ => .pingSignals) hs

theorem effect_pingStop (hs : s.step .pingStop = some t) :
    ∃ ch, Taken s.stopChan ch ∧ t = { s with ping := .exited, stopChan := ch } := by
  obtain ⟨-, hs⟩ := ite_none_right_eq_some.mp hs
  obtain ⟨ch, token, rfl⟩ := of_take hs
  exact ⟨ch, token, rfl⟩

/-- `stopChan` is open until the function returns, `dataChan` is closed when the scanner is about
to leave, and the mutex is held by a goroutine that has locked it. -/
structure Sound (s : System) : Prop where
  stopOpen : s.main ≠ .returned → s.stopChan.closed = false
  dataClosed : s.scanner = .signalling ∨ s.scanner = .exited → s.dataChan.closed = true
  ofHandler : s.writeMutex = some .handler →
    s.handler ≠ .receiving ∧ ∀ data, s.handler ≠ .locking data
  ofWriter : s.writeMutex = some .writer → s.writer = .writing

theorem Sound.open_of_waiting (h : s.Sound) (waiting : s.main = .waiting) :
    s.stopChan.closed = false := h.stopOpen (by simp [waiting])

theorem Sound.effect (h : s.Sound) (e : Effect s t) : t.Sound := by
  obtain ⟨stopOpen, dataClosed, ofHandler, ofWriter⟩ := h
  constructor
  · cases e <;> grind [Taken, Sent]
  · cases e <;> grind [Chan.close, Scanner.Running]
  · cases e <;> grind
  · cases e <;> grind

theorem Sound.step (h : s.Sound) (hs : s.step a = some t) : t.Sound := by
  by_cases ping : a = .pingStop
  · subst ping
    obtain ⟨ch, token, rfl⟩ := effect_pingStop hs
    exact ⟨fun running => token.1.trans (h.stopOpen running), h.dataClosed, h.ofHandler, h.ofWriter⟩
  · exact h.effect (System.effect hs ping)

/-- When the data handler has left, a token is there or is still to be sent by the scanner, as long
as the function waits. -/
def Signalled (s : System) : Prop :=
  s.main = .waiting → s.handler = .exited → s.stopChan.buffer ≠ [] ∨ s.scanner.Leaving

theorem not_leaving_of_running {s : Scanner} (h : s.Running) : ¬ s.Leaving := by
  rintro (rfl | rfl) <;> exact h

theorem Signalled.effect (sound : s.Sound) (h : s.Signalled) (e : Effect s t) :
    t.Signalled := by
  intro waiting exited
  cases e with
  | leave | leaveByToken | cancel | stop | «return» => cases waiting
  | disconnect | writerLock | written | ping => exact h waiting exited
  | receive | lock | handlerLeaves => cases exited
  | handled next => exact absurd exited next
  | handlerSignals _ sent | pingSignals sent | scannerSignals _ sent =>
    exact .inl (sent.2 (sound.open_of_waiting waiting))
  | scan running next =>
    exact .inl ((h waiting exited).resolve_right (not_leaving_of_running running))
  | scannerLeaves | scannerLeavesByToken => exact .inr (.inl rfl)
  | close => exact .inr (.inr rfl)

/-- The ping goroutine may take a token unless it is the last one that tells the function of the
handler's exit. -/
def mayStop (s : System) : Label → Prop
  | .pingStop => s.main = .waiting → s.handler = .exited →
      1 < s.stopChan.buffer.length ∨ s.scanner.Leaving
  | _ => True

theorem Signalled.step_iff (sound : s.Sound) (h : s.Signalled) (hs : s.step a = some t) :
    t.Signalled ↔ s.mayStop a := by
  by_cases ping : a = .pingStop
  · subst ping
    obtain ⟨ch, token, rfl⟩ := effect_pingStop hs
    refine imp_congr_right fun waiting => imp_congr_right fun _ => or_congr_left ?_
    rw [token.2 (sound.open_of_waiting waiting)]
    simp [List.length_pos_iff]
  · refine iff_of_true (h.effect sound (System.effect hs ping)) ?_
    cases a <;> trivial

def Stalled (s : System) : Prop :=
  s.handler = .exited ∧ s.stopChan.buffer = [] ∧ s.main = .waiting ∧
    ∃ data, s.scanner = .sending data ∧ s.dataChan.send data = none

theorem Signalled.not_stalled (h : s.Signalled) : ¬ s.Stalled := by
  rintro ⟨exited, empty, waiting, data, sending, -⟩
  rcases h waiting exited with some | leaving
  · exact some empty
  · exact not_leaving_of_running (by rw [sending]; trivial) leaving

end System

/-- The steps of the function, the data handler and the scanner, and the end of a ping that is being
written: no timeout, no disconnect and nothing else of the ping goroutine. -/
def Label.isWork : Label → Bool
  | .mainStop | .receive | .handlerLock | .handled _ | .handlerSend | .scan | .checkCtx | .checkGone
  | .pass | .send | .close | .scannerSend | .written _ => true
  | _ => false

def Scanner.work : Scanner → Nat
  | .scanning => 3
  | .checking _ => 9
  | .sending _ => 8
  | .closing => 2
  | .signalling => 1
  | .exited => 0

def Handler.work : Handler → Nat
  | .receiving => 2
  | .locking _ => 5
  | .handling _ => 4
  | .signalling => 1
  | .exited => 0

namespace System

def work (s : System) : Nat :=
  7 * s.lines.length + s.scanner.work + 4 * s.dataChan.buffer.length + s.handler.work +
    if s.writer = .writing then 1 else 0

def Works (s : System) : Prop :=
  ∃ a t, a.isWork = true ∧ s.step a = some t ∧ (t.main ≠ .waiting ∨ t.work < s.work)

variable {s : System}

theorem signal_of_empty (empty : s.stopChan.buffer = []) (f : System → System) :
    ∃ ch, s.signal.map f = some (f { s with stopChan := ch }) := by
  have room : s.stopChan.buffer.length < 3 := by simp [empty]
  obtain ⟨ch, sent⟩ := isSome_iff_exists.mp (Chan.safeSend_isSome () room)
  exact ⟨ch, by simp [signal, sent]⟩

theorem works_of_leaving (empty : s.stopChan.buffer = []) (h : s.scanner.Leaving) :
    s.Works := by
  rcases h with closing | signalling
  · refine ⟨.close, _, rfl, by simp only [step, closing, if_true]; rfl, .inr ?_⟩
    simp [work, closing, Scanner.work, Chan.close]
  · obtain ⟨ch, sent⟩ := signal_of_empty empty fun s => { s with scanner := .exited }
    refine ⟨.scannerSend, _, rfl, by simp only [step, signalling, if_true, sent]; rfl, .inr ?_⟩
    simp [work, signalling, Scanner.work]

theorem works_of_running (drained : s.dataChan.buffer = []) (noToken : s.take = none)
    (h : s.scanner.Running) : s.Works := by
  cases here : s.scanner with
  | scanning =>
    cases lines : s.lines with
    | nil =>
      refine ⟨.scan, _, rfl, by simp only [step, here, lines, if_true]; rfl, .inr ?_⟩
      simp [work, here, lines, Scanner.work]
    | cons line rest =>
      refine ⟨.scan, _, rfl, by simp only [step, here, lines, if_true]; rfl, .inr ?_⟩
      simp [work, here, lines, Scanner.work]
      omega
  | checking line =>
    by_cases ctx : s.ctxDone
    · refine ⟨.checkCtx, _, rfl, by simp only [step, here, ctx, if_true]; rfl, .inr ?_⟩
      simp [work, here, Scanner.work]
    by_cases gone : s.clientGone
    · refine ⟨.checkGone, _, rfl, by simp only [step, here, gone, if_true]; rfl, .inr ?_⟩
      simp [work, here, Scanner.work]
    cases read : readLine line with
    | skip | data _ | done =>
      refine ⟨.pass, _, rfl, by simp [step, here, noToken, ctx, gone, read]; rfl, .inr ?_⟩
      simp [work, here, Scanner.work]
  | sending data =>
    obtain ⟨ch, sent⟩ := isSome_iff_exists.mp
      ((s.dataChan.send_isSome data).mpr (by simp [drained]))
    obtain ⟨-, buffer, -⟩ := Chan.send_eq_some sent
    refine ⟨.send, _, rfl, by simp only [step, here, sent, map_some]; rfl, .inr ?_⟩
    simp [work, here, buffer, drained, Scanner.work]
  | closing | signalling | exited => rw [here] at h; exact absurd h not_false

theorem Signalled.works (h : s.Signalled) (sound : s.Sound) (waiting : s.main = .waiting) :
    s.Works := by
  by_cases empty : s.stopChan.buffer = []
  swap
  · obtain ⟨r, received⟩ := isSome_iff_exists.mp (s.stopChan.recv_isSome.mpr (.inl empty))
    refine ⟨.mainStop, _, rfl, by simp only [step, waiting, if_true, take, received]; rfl, .inl ?_⟩
    simp
  by_cases leaving : s.scanner.Leaving
  · exact works_of_leaving empty leaving
  cases here : s.handler with
  | exited => exact absurd (h waiting here) (by simp [empty, leaving])
  | receiving =>
    cases received : s.dataChan.recv with
    | some r =>
      obtain ⟨data, ch⟩ := r
      have took := (Chan.recv_eq_some received).2
      cases data with
      | some data =>
        refine ⟨.receive, _, rfl, by simp only [step, here, if_true, received]; rfl, .inr ?_⟩
        simp only [work, here, took, Handler.work, List.length_cons]
        omega
      | none =>
        refine ⟨.receive, _, rfl, by simp only [step, here, if_true, received]; rfl, .inr ?_⟩
        simp [work, here, Handler.work]
    | none =>
      have idle : s.dataChan.buffer = [] ∧ s.dataChan.closed = false := by
        simpa [received] using s.dataChan.recv_isSome
      have noToken : s.take = none := by
        have : s.stopChan.recv = none := by
          simpa [empty, sound.open_of_waiting waiting] using s.stopChan.recv_isSome
        simp [take, this]
      refine works_of_running idle.1 noToken ?_
      have opened := mt sound.dataClosed (by simp [idle.2])
      cases at_ : s.scanner with
      | scanning | checking | sending => trivial
      | closing => exact leaving (.inl at_)
      | signalling => exact opened (.inl at_)
      | exited => exact opened (.inr at_)
  | locking data =>
    cases mutex : s.writeMutex with
    | none =>
      refine ⟨.handlerLock, _, rfl, by simp only [step, here, mutex]; rfl, .inr ?_⟩
      simp [work, here, Handler.work]
    | some owner =>
      cases owner with
      | handler => exact absurd here ((sound.ofHandler mutex).2 data)
      | writer =>
        have writing := sound.ofWriter mutex
        refine ⟨.written true, _, rfl, by simp only [step, writing, if_true]; rfl, .inr ?_⟩
        simp [work, writing]
  | handling data =>
    refine ⟨.handled false, _, rfl, by simp only [step, here]; rfl, .inr ?_⟩
    simp [work, here, Handler.work]
  | signalling =>
    obtain ⟨ch, sent⟩ := signal_of_empty empty fun s => { s with handler := .exited }
    refine ⟨.handlerSend, _, rfl, by simp only [step, here, if_true, sent]; rfl, .inr ?_⟩
    simp [work, here, Handler.work]

theorem start_sound (lines : List String) (pingEnabled : Bool) :
    (start lines pingEnabled).Sound where
  stopOpen := fun _ => rfl
  dataClosed := fun h => by simp [start] at h
  ofHandler := fun h => by simp [start] at h
  ofWriter := fun h => by simp [start] at h

theorem Signalled.can_return (h : s.Signalled) (sound : s.Sound) :
    ∃ as t, (∀ a ∈ as, Label.isWork a = true) ∧ exec System.step s as = some t ∧
      t.main ≠ .waiting := by
  induction n : s.work using Nat.strong_induction_on generalizing s with
  | _ n ih =>
    by_cases waiting : s.main = .waiting
    · obtain ⟨a, t, isWork, step, done | less⟩ := h.works sound waiting
      · exact ⟨[a], t, by simpa using isWork, by simp [exec, step], done⟩
      · have signalled : t.Signalled := (h.step_iff sound step).mpr (by cases a <;> trivial)
        obtain ⟨as, u, all, run, done⟩ := ih t.work (n ▸ less) signalled (sound.step step) rfl
        exact ⟨a :: as, u, by simpa [isWork] using all, by simpa [exec, step] using run, done⟩
    · exact ⟨[], s, by simp, rfl, waiting⟩

end System

/-- For every list of upstream lines and every run in which the ping goroutine takes no last token
from a waiting function: the system is not stalled, and while the function waits one of the parties
has a step.  The invariant behind it is lost exactly by a step that takes such a token. -/
theorem scanner_never_stalls (lines : List String) (pingEnabled : Bool) (labels : List Label)
    (s : System) (run : Path System.mayStop System.step (start lines pingEnabled) labels s) :
    ¬ s.Stalled ∧
      (s.main = .waiting → ∃ a t, a.isWork = true ∧ s.step a = some t) ∧
      ∀ a t, s.step a = some t → (t.Signalled ↔ s.mayStop a) := by
  have inv : s.Sound ∧ s.Signalled :=
    run.invariant (I := fun s => s.Sound ∧ s.Signalled)
      (fun _ _ _ h ok hs => ⟨h.1.step hs, (h.2.step_iff h.1 hs).mpr ok⟩)
      ⟨System.start_sound lines pingEnabled, fun _ exited => by cases exited⟩
  refine ⟨inv.2.not_stalled, fun waiting => ?_, fun a t hs => inv.2.step_iff inv.1 hs⟩
  obtain ⟨a, t, isWork, step, -⟩ := inv.2.works inv.1 waiting
  exact ⟨a, t, isWork, step⟩

/-- In every run in which the ping goroutine takes no last token, the function can be brought to
leave its select by steps of the parties alone. -/
theorem scanner_can_return
    (run : Path System.mayStop System.step (start lines pingEnabled) labels s) :
    ∃ as t, (∀ a ∈ as, Label.isWork a = true) ∧ exec System.step s as = some t ∧
      t.main ≠ .waiting := by
  have inv := run.invariant (I := fun s => s.Sound ∧ s.Signalled)
    (fun _ _ _ h ok hs => ⟨h.1.step hs, (h.2.step_iff h.1 hs).mpr ok⟩)
    ⟨System.start_sound lines pingEnabled, fun _ exited => by cases exited⟩
  exact inv.2.can_return inv.1

def handlerStops : List Label :=
  [.scan, .pass, .send, .receive, .handlerLock, .handled true, .handlerSend]

/-- The ping goroutine takes the handler's token while the scanner, at the end of the lines, is on
its way to send another one. -/
theorem scanner_can_return_stopped :
    ∃ s, Path System.mayStop System.step (start ["data: x"] true)
        (handlerStops ++ [.scan, .pingStop]) s ∧ s.stopChan.buffer = [] ∧
      ∃ as t, (∀ a ∈ as, Label.isWork a = true) ∧ exec System.step s as = some t ∧
        t.main ≠ .waiting :=
  Path.exists_and (.cons trivial rfl <| .cons trivial rfl <| .cons trivial rfl <|
      .cons trivial rfl <| .cons trivial rfl <| .cons trivial rfl <| .cons trivial rfl <|
      .cons trivial rfl <| .cons (fun _ _ => .inr (.inl rfl)) rfl <| .nil _)
    fun path => ⟨rfl, scanner_can_return path⟩

theorem scanner_never_stalls_stopped :
    ∃ s, Path System.mayStop System.step (start ["data: x"] true) handlerStops s ∧ ¬ s.Stalled ∧
      ∃ a t, a.isWork = true ∧ s.step a = some t := by
  have path : Path System.mayStop System.step (start ["data: x"] true) handlerStops _ :=
    .cons trivial rfl <| .cons trivial rfl <| .cons trivial rfl <| .cons trivial rfl <|
      .cons trivial rfl <| .cons trivial rfl <| .cons trivial rfl <| .nil _
  obtain ⟨free, works, -⟩ := scanner_never_stalls _ _ _ _ path
  exact ⟨_, path, free, works rfl⟩

/-- The labels of a handler that stops at the first data line, and of a ping goroutine that takes
its token; then the scanner fills `dataChan`. -/
def tokenLost : List Label :=
  [.scan, .pass, .send, .receive, .handlerLock, .handled true, .handlerSend, .pingStop] ++
    (List.replicate 10 [.scan, .pass, .send]).flatten ++ [.scan, .pass]

theorem scanner_stalls :
    ∃ s, exec System.step (start (List.replicate 12 "data: x") true) tokenLost = some s ∧
      s.Stalled :=
  ⟨_, rfl, rfl, rfl, rfl, _, rfl, rfl⟩

end EastApi.Stream
