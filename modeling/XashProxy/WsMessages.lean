import XashProxy.Json

/-!
# The signaling messages of a client

A model of `handle_ws_messages`: the loop over the WebSocket frames of a
client and what it does to the peer connection. Each text is read twice, the
first time only to set keepalive pings aside. `precheck_changes_nothing` says
that this reading loses no answer and no candidate, and that the loop without
it does the same.

The grammar of `serde_json` and its tokens are a parameter, and so are the
parsers of session descriptions and candidates.
-/

namespace XashProxy

namespace Signaling

open Json

/-! ## Messages -/

/-- Signal event type constants. -/
def answerEvent : String := "answer"

def candidateEvent : String := "candidate"

def pingEvent : String := "ping"

/-- WebSocket signaling message. -/
structure SignalMessage (N : Type) where
  event : String
  data : Value N

/-- A result of `receiver.next()`. -/
inductive Frame where
  | text (text : String)
  | binary
  | ping
  | pong
  | close
  | err
deriving DecidableEq, Repr

/-- A call on the peer connection. -/
inductive PeerOp (SDP ICE : Type) where
  | setRemoteDescription (answer : SDP)
  | addIceCandidate (candidate : ICE)

/-- The parsers the handlers use: `serde_json`, and those of the WebRTC
library for a session description and for a candidate. -/
structure Parsers (N SDP ICE : Type) where
  json : Decoder N
  answer : String → Option SDP
  candidate : Value N → Option ICE

variable {N SDP ICE : Type} (ps : Parsers N SDP ICE)

/-- The nesting `serde_json` reads: 127 arrays and objects. -/
def recursionLimit : Nat := 128

/-- `serde_json::from_str::<serde_json::Value>` -/
def valueOfStr (text : String) : Option (Value N) :=
  (ps.json.parse text).bind fun t => ps.json.read recursionLimit t

/-- `serde_json::from_str::<SignalMessage>`; the structure itself takes one
level of the nesting. -/
def signalOfStr (text : String) : Option (SignalMessage N) :=
  (ps.json.parse text).bind fun t =>
    (ps.json.readStruct "event" "data" ps.json.readString
      (ps.json.read (recursionLimit - 1)) t).map fun r => ⟨r.1, r.2⟩

/-- The lenient reading finds a ping. -/
def isPing (text : String) : Bool :=
  match valueOfStr ps text with
  | some value => (value.get "event").bind Value.asStr == some pingEvent
  | none => false

/-- Of two members named `event` the lenient reading takes the last, and the
strict one refuses the text. -/
example :
    let ps : Parsers Nat String String :=
      ⟨⟨fun _ => some (.object [("event", .string "answer"), ("data", .null),
        ("event", .string "ping")]), fun _ => none, some⟩, some, fun _ => none⟩
    isPing ps "" = true ∧ (signalOfStr ps "").isNone = true := by decide

/-! ## The handlers -/

def handleAnswer (signal : SignalMessage N) : List (PeerOp SDP ICE) :=
  let sdp := ((signal.data.get "sdp").bind Value.asStr).getD ""
  match ps.answer sdp with
  | some answer => [.setRemoteDescription answer]
  | none => []

def handleCandidate (data : Value N) : List (PeerOp SDP ICE) :=
  match ps.candidate data with
  | some candidate => [.addIceCandidate candidate]
  | none => []

/-- A text after the pre-check. -/
def handleSignal (text : String) : List (PeerOp SDP ICE) :=
  match signalOfStr ps text with
  | some signal =>
      if signal.event = answerEvent then handleAnswer ps signal
      else if signal.event = candidateEvent then handleCandidate ps signal.data
      else []
  | none => []

def handleText (text : String) : List (PeerOp SDP ICE) :=
  if isPing ps text then [] else handleSignal ps text

/-- The loop, with the operations of a text and in the order they are done. -/
def messageLoop (onText : String → List (PeerOp SDP ICE)) : List Frame → List (PeerOp SDP ICE)
  | [] => []
  | .text text :: frames => onText text ++ messageLoop onText frames
  | .close :: _ => []
  | .ping :: frames | .pong :: frames | .binary :: frames => messageLoop onText frames
  | .err :: _ => []

def handleWsMessages (frames : List Frame) : List (PeerOp SDP ICE) :=
  messageLoop (handleText ps) frames

/-- The abstract loop: the same one without the pre-check. -/
def handleWithoutPrecheck (frames : List Frame) : List (PeerOp SDP ICE) :=
  messageLoop (handleSignal ps) frames

/-! ## The pre-check -/

/-- What the pre-check takes for a ping is one, if it is a message at all. -/
theorem event_of_isPing {text : String} (hping : isPing ps text = true)
    {signal : SignalMessage N} (h : signalOfStr ps text = some signal) :
    signal.event = pingEvent := by
  obtain ⟨t, ht, h⟩ := Option.bind_eq_some_iff.mp h
  obtain ⟨⟨event, data⟩, hstruct, rfl⟩ := Option.map_eq_some_iff.mp h
  unfold isPing valueOfStr at hping
  rw [ht, Option.bind_some] at hping
  split at hping
  · rename_i value hvalue
    exact ps.json.asStr_of_readStruct hvalue (eq_of_beq hping) hstruct
  · cases hping

theorem handleSignal_of_isPing {text : String} (hping : isPing ps text = true) :
    handleSignal ps text = [] := by
  unfold handleSignal
  cases hsignal : signalOfStr ps text with
  | none => rfl
  | some signal =>
      have hevent := event_of_isPing ps hping hsignal
      dsimp only
      rw [hevent, if_neg (by decide), if_neg (by decide)]

theorem handleText_eq (text : String) : handleText ps text = handleSignal ps text := by
  unfold handleText
  by_cases hping : isPing ps text = true
  · rw [if_pos hping, handleSignal_of_isPing ps hping]
  · rw [if_neg hping]

/-! ## The loop -/

/-- The frames that leave the loop. -/
def Frame.ends : Frame → Bool
  | .close | .err => true
  | _ => false

/-- What comes after a text is handled as if the text had not been there. -/
theorem messageLoop_append_text (onText : String → List (PeerOp SDP ICE))
    {before : List Frame} (hbefore : ∀ f ∈ before, f.ends = false) (text : String)
    (after : List Frame) :
    messageLoop onText (before ++ .text text :: after)
      = messageLoop onText before ++ onText text ++ messageLoop onText after := by
  induction before with
  | nil => rfl
  | cons f before ih =>
      have hrest := ih fun f' hf' => hbefore f' (List.mem_cons_of_mem _ hf')
      have hf := hbefore f (List.mem_cons_self ..)
      cases f with
      | text first =>
          rw [List.cons_append, messageLoop, messageLoop, hrest]
          simp only [List.append_assoc]
      | close => cases hf
      | err => cases hf
      | binary => exact hrest
      | ping => exact hrest
      | pong => exact hrest

/-- The pre-check changes nothing: the peer operations are those of the loop
without it, no answer or candidate is set aside, and a text neither leaves
the loop nor touches what is done for the frames around it. -/
theorem precheck_changes_nothing (frames : List Frame) :
    handleWsMessages ps frames = handleWithoutPrecheck ps frames
      ∧ (∀ text signal, isPing ps text = true → signalOfStr ps text = some signal →
          signal.event ≠ answerEvent ∧ signal.event ≠ candidateEvent)
      ∧ (∀ before text after, frames = before ++ .text text :: after →
          (∀ f ∈ before, f.ends = false) →
          handleWsMessages ps frames
            = handleWsMessages ps before ++ handleText ps text
              ++ handleWsMessages ps after) := by
  refine ⟨?_, fun text signal hping h => ?_, fun before text after hframes hbefore => ?_⟩
  · have hsame : handleText ps = handleSignal ps := funext (handleText_eq ps)
    rw [handleWsMessages, handleWithoutPrecheck, hsame]
  · rw [event_of_isPing ps hping h]
    exact ⟨by decide, by decide⟩
  · subst hframes
    exact messageLoop_append_text (handleText ps) hbefore text after

end Signaling

end XashProxy
