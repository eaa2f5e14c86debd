import Fieldbus.Dispatch.Receive

/-!
# Commands

A command is queued ready-made (`enqueue`), or built by the decoder of its entity first (`send`).  A
command that the device will acknowledge leaves an expectation behind.  The transport asks for the
next command whenever it can send one (`next`).
-/

set_option autoImplicit false

namespace Fieldbus
namespace Dispatcher

/-- A complete frame is queued; the result says whether nothing was queued before. -/
def enqueue (d : Dispatcher) (name : String) (command : Bytes) (priority : Priority) :
    Response Bool :=
  match d.channel? name with
  | none => d.refuse (.unknownChannel name)
  | some channel =>
    { result := .ok channel.queue.isEmpty
      dispatcher :=
        d.setChannel name { channel with queue := channel.queue.push command priority } }

/-- What the script of a channel that transmits by one is told about the devices. -/
def sendSnapshot (d : Dispatcher) (channel : Channel) : Option Json :=
  if channel.profile.tx.checksum.isScript then some (snapshotOf d.states) else none

/-- The frame of a command, built by the decoder of its entity. -/
def build (d : Dispatcher) (channel : Channel) (decoder : Decoder) (command : String)
    (value : Option Value) : Except DispatchError Bytes :=
  match (decoder.buildCommand command value (d.sendSnapshot channel)).guardedValue with
  | .error message => .error (.decoder decoder.id message)
  | .ok none => .error (.unknownCommand decoder.id command)
  | .ok (some frame) => .ok frame

/-- A command is built and queued; the result says whether nothing was queued before. -/
def send (d : Dispatcher) (name entity command : String) (value : Option Value)
    (priority : Priority) (now : Time) : Response Bool :=
  match d.decoder? entity with
  | none => d.refuse (.unknownEntity entity)
  | some decoder =>
    match d.channel? name with
    | none => d.refuse (.unknownChannel name)
    | some channel =>
      match d.build channel decoder command value with
      | .error error => d.refuse error
      | .ok frame =>
        let expected := if (decoder.expectsAck command).isTrue then [⟨entity, command, now⟩] else []
        { result := .ok channel.queue.isEmpty
          dispatcher := d.setChannel name
            { channel with
              expectations := channel.expectations ++ expected
              queue := channel.queue.push frame priority } }

/-- The transport asks for the next command.  Expectations that have waited too long are given up
first. -/
def next (d : Dispatcher) (name : String) (now : Time) : Response (Option Bytes) :=
  match d.channel? name with
  | none => d.refuse (.unknownChannel name)
  | some channel =>
    let (expired, expectations) := expireAcks name d.ackTimeout now channel.expectations
    let (command, queue) := channel.queue.pop now
    { result := .ok command
      events := expired
      dispatcher := d.setChannel name { channel with expectations, queue } }

end Dispatcher
end Fieldbus
