import Fieldbus.Channel.Config
import Fieldbus.Checksum.Basic

/-!
# Usable channels

`ChannelConfig.resolve` turns the description of a channel into a `ChannelProfile`, or says what is
wrong with it; no frame is ever looked at with a description that has not been resolved.  On the
receiving side something has to say where a frame ends, in this order of preference: a fixed length,
a footer, a checksum.
-/

set_option autoImplicit false

namespace Fieldbus

/-! ## Receiving -/

/-- What says where a frame ends. -/
inductive Delimiter where
  /-- Every frame has this many bytes. -/
  | fixedLength (length : Nat)
  /-- The frame ends with the first footer in front of which the checksum verifies. -/
  | footer
  /-- The frame ends with the first checksum that verifies. -/
  | checksum
deriving DecidableEq, Repr

/-- What received frames look like. -/
structure RxFraming where
  header : Bytes
  footer : Bytes
  checksum : Checksum
  delimiter : Delimiter
  minLength : Option Nat
  maxLength : Option Nat
  /-- Milliseconds without a byte after which a partial frame is dropped. -/
  timeout : Nat
  /-- The bytes that may begin a frame, if not all may and there is no header. -/
  startBytes : Option Bytes

namespace RxFraming

/-- The bytes of a frame that are not data. -/
def overhead (rx : RxFraming) : Nat := rx.header.length + rx.checksum.length + rx.footer.length

/-- Is a frame of this length passed on? -/
def acceptsLength (rx : RxFraming) (length : Nat) : Bool :=
  rx.minLength.all (· ≤ length) && rx.maxLength.all (length ≤ ·)

/-- May a frame begin with this byte?  The first byte of the header decides, else the list of start
bytes; without both any byte may. -/
def isStartByte (rx : RxFraming) (b : UInt8) : Bool :=
  match rx.header with
  | first :: _ => b == first
  | [] => rx.startBytes.all (·.contains b)

end RxFraming

/-! ## Transmitting -/

/-- How commands are wrapped. -/
structure TxFraming where
  header : Bytes
  footer : Bytes
  checksum : Checksum
  /-- Milliseconds between two commands. -/
  delay : Nat

namespace TxFraming

/-- The frame around the data of a command: header, data, the checksum of both, footer. -/
def frame (tx : TxFraming) (data : Bytes) (snapshot : Option Json) :
    Except ChecksumError Bytes :=
  match tx.checksum.compute tx.header data snapshot with
  | .ok checksum => .ok (tx.header ++ data ++ checksum ++ tx.footer)
  | .error e => .error e

/-- The same, part by part at the end of a buffer: how it went, and the buffer after it.  Nothing is
put there before the checksum is known. -/
def encodeInto (tx : TxFraming) (data : Bytes) (snapshot : Option Json) (buffer : Bytes) :
    Except ChecksumError Unit × Bytes :=
  match tx.checksum.compute tx.header data snapshot with
  | .ok checksum => (.ok (), buffer ++ tx.header ++ data ++ checksum ++ tx.footer)
  | .error e => (.error e, buffer)

end TxFraming

/-! ## Resolving -/

/-- A channel that is ready for use. -/
structure ChannelProfile where
  rx : RxFraming
  tx : TxFraming

/-- Does any checksum of the channel depend on what is known about the devices? -/
def ChannelProfile.usesScript (profile : ChannelProfile) : Bool :=
  profile.rx.checksum.isScript || profile.tx.checksum.isScript

namespace ChannelConfig

/-- The checksum of one side: the slot of two bytes goes before the slot of one. -/
def resolveSide (one two : Option ChecksumSetting) (evaluator : Option Evaluator) :
    Except ConfigError Checksum :=
  match two, one with
  | some setting, _ => Checksum.resolve setting .two evaluator
  | none, some setting => Checksum.resolve setting .one evaluator
  | none, none => .ok .absent

/-- The bounds on the length of a frame do not contradict each other. -/
def checkBounds (config : ChannelConfig) : Except ConfigError Unit :=
  match config.rxMinLength, config.rxMaxLength with
  | some least, some greatest =>
    if greatest < least then .error (.invalidBounds least greatest) else .ok ()
  | _, _ => .ok ()

/-- What says where a received frame ends, the checksum being given. -/
def delimiter (config : ChannelConfig) (checksum : Checksum) : Except ConfigError Delimiter :=
  match config.rxLength with
  | some length =>
    let minimum := config.rxHeader.length + checksum.length + config.rxFooter.length + 1
    if length < minimum then .error (.lengthTooSmall length minimum)
    else .ok (.fixedLength length)
  | none =>
    if !config.rxFooter.isEmpty then .ok .footer
    else if !checksum.isAbsent then .ok .checksum
    else .error .unframeable

/-- The channel of a description, or the first thing that is wrong with it. -/
def resolve (config : ChannelConfig) (evaluator : Option Evaluator) :
    Except ConfigError ChannelProfile := do
  let rxChecksum ← resolveSide config.rxChecksum config.rxChecksum2 evaluator
  let txChecksum ← resolveSide config.txChecksum config.txChecksum2 evaluator
  config.checkBounds
  let delimiter ← config.delimiter rxChecksum
  return {
    rx := {
      header := config.rxHeader
      footer := config.rxFooter
      checksum := rxChecksum
      delimiter
      minLength := config.rxMinLength
      maxLength := config.rxMaxLength
      timeout := config.rxTimeout
      startBytes := config.rxStartBytes }
    tx := {
      header := config.txHeader
      footer := config.txFooter
      checksum := txChecksum
      delay := config.txDelay } }

end ChannelConfig
end Fieldbus
