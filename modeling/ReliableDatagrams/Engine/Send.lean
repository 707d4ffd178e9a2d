import ReliableDatagrams.Address.Text
import ReliableDatagrams.Engine.Basic
import ReliableDatagrams.Frame.Decode

/-!
# Sending messages

`Engine.send` writes a message into one frame and hands it to the socket. A reliable message takes an
id and a record, and its frame is kept there to be sent again by `Engine.resendSyn`.

Once in 65536 frames to a peer the counter of timestamps wraps around. The message that draws the
last value goes by a handshake in any case, without timestamp, which lets the peer start anew.
-/

namespace ReliableDatagrams

/-- What a sender asks for. -/
inductive Delivery where
  /-- At most once; a frame that is overtaken by a newer one is lost. -/
  | unreliable
  /-- By a handshake, with repetitions. -/
  | reliable
deriving DecidableEq, Repr, Inhabited

/-- Why a message is not sent. -/
inductive SendError where
  | unwritable (error : EncodeError)
  | tooLarge (target : Address) (size max : Nat)
  /-- The socket did not accept the frame. -/
  | refused
deriving DecidableEq, Repr

namespace SendError

def message : SendError → String
  | unwritable error => error.message
  | tooLarge target size max =>
    s!"message to {target.toText} has {size} bytes, exceeding the maximum datagram size of {max}"
  | refused => "network unreachable"

end SendError

namespace Engine

/-- The frame for a message, if it can be written and is not too large to be sent. -/
def writeFrame (engine : Engine) (target : Address) (fields : FieldMap) (options : FrameOptions) :
    Except SendError Bytes :=
  match encode fields.toList options with
  | .error error => .error (.unwritable error)
  | .ok frame =>
    if engine.config.maxDatagramSize < frame.length then
      .error (.tooLarge target frame.length engine.config.maxDatagramSize)
    else .ok frame

def drawMessageId (engine : Engine) (isNeeded : Bool) : Engine × Option UInt32 :=
  if isNeeded then
    let (id, messageIds) := engine.messageIds.draw
    ({ engine with messageIds }, some id)
  else (engine, none)

def sendFrame (engine : Engine) (occasion : Occasion) (target : Address) (id : Option UInt32)
    (frame : Bytes) : Engine × List Effect :=
  match id with
  | none => (engine, [.sent target frame (occasion.accepts target frame)])
  | some id =>
    let (store, connection, _) :=
      engine.store.connectionOrInsert occasion.now ⟨target, id, .sender⟩
    let connection := { connection with status := .synSent }
    { engine with store }.transmit occasion (connection.touch occasion.now) frame

/-- Sends a message, and tells the id that it got. Timestamp and id are spent even if the message
cannot be sent. -/
def send (engine : Engine) (occasion : Occasion) (target : Address) (fields : FieldMap)
    (delivery : Delivery) : Engine × List Effect × Except SendError (Option UInt32) :=
  let (engine, timestamp) := engine.drawTimestamp occasion.now target
  let (engine, messageId) :=
    engine.drawMessageId (delivery = .reliable ∨ timestamp = wraparoundTimestamp)
  let options := { messageId, timestamp := some timestamp, doubleCount := fields.needsDoubleCount }
  match engine.writeFrame target fields options with
  | .error error => (engine, [], .error error)
  | .ok frame =>
    let (engine, effects) := engine.sendFrame occasion target messageId frame
    (engine, effects, if occasion.accepts target frame then .ok messageId else .error .refused)

/-- The same first frame with a fresh timestamp: the one it had may have become stale, because newer
frames got through to the peer. -/
def restamp (engine : Engine) (now : Nat) (target : Address) (syn : Bytes) :
    Engine × Option Bytes :=
  match Frame.decode syn with
  | .error _ => (engine, none)
  | .ok frame =>
    let (engine, timestamp) := engine.drawTimestamp now target
    let options :=
      { messageId := frame.header.messageId
        timestamp := some timestamp
        doubleCount := frame.header.flags.doubleCount }
    (engine, (engine.writeFrame target frame.fields options).toOption)

def resendSyn (engine : Engine) (occasion : Occasion) (connection : ConnectionRecord)
    (syn : Bytes) : Engine × List Effect :=
  match engine.restamp occasion.now connection.key.peer syn with
  | (engine, none) => (engine.retire occasion.now connection, [])
  | (engine, some frame) =>
    if connection.status = .synSent then engine.transmit occasion connection frame
    else (engine, [])

end Engine

end ReliableDatagrams
