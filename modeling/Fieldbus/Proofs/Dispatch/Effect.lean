import Fieldbus.Proofs.Dispatch.Run

/-!
# What an occurrence can do to a dispatcher

Many things can happen to a dispatcher, but most of them come to the same: nothing is done, one of
the two settings is changed, a new channel is added, or a channel that is there goes on.
`Dispatcher.Effect` says which of these an occurrence may have, and in each case what is left and
what is told; `effect_perform` says that it always has one of them.  What holds of a dispatcher
throughout a run is proved by looking at the effects, and the operations need not be opened again.
-/

set_option autoImplicit false

namespace Fieldbus

/-! ## Receivers -/

/-- The receiving ends that a new channel may have. -/
inductive Receiver.IsFresh (rx : RxFraming) : Receiver → Prop
  | inProcess : IsFresh rx (.inProcess { framing := rx })
  | offloaded (config : OffloadConfig) (aided : Bool) :
      IsFresh rx (.offloaded (.launch rx config aided))

/-- What a receiving end may hand over: frames, and itself as it is then. -/
inductive Receiver.HandsOver (receiver : Receiver) : List Frame × Receiver → Prop
  | fed (bytes : Bytes) (now : Time) (meanwhile : Meanwhile) :
      HandsOver receiver (receiver.feedAmid bytes now meanwhile)
  | collected (untilDrained : Bool) (meanwhile : Meanwhile) :
      HandsOver receiver (receiver.collect untilDrained meanwhile)

/-! ## Effects

The cases are by what is done and not by who did it: bytes that come and frames that are collected
are one case, as are the three ways of adding a channel.  A case keeps what later proofs need, that
a new channel has nothing in its queue and awaits nothing, that a channel goes on with the profile
that it has, and the answer of the call. -/

namespace Dispatcher

/-- What an occurrence may do. -/
inductive Effect (d : Dispatcher) : Occurrence → Response Answer → Prop
  | refused {o : Occurrence} (error : DispatchError) : Effect d o (d.refuse error)
  | registered (decoder : Decoder) : Effect d (.register decoder) (d.register decoder).become
  | timed (timeout : Nat) : Effect d (.setAckTimeout timeout) (d.setAckTimeout timeout).become
  /-- There is a new channel. -/
  | added {o : Occurrence} {name : String} {profile : ChannelProfile} {receiver : Receiver}
      (hnew : d.channel? name = none) (hfresh : receiver.IsFresh profile.rx) :
      Effect d o (d.setChannel name (.ofProfile profile receiver)).become
  /-- Frames are taken from the receiving end of a channel and dispatched. -/
  | received {o : Occurrence} {name : String} {channel : Channel} {frames : List Frame}
      {receiver : Receiver} (now : Time) (hearings : List Hearing)
      (hchannel : d.channel? name = some channel)
      (hframes : channel.receiver.HandsOver (frames, receiver)) :
      Effect d o
        ((d.dispatchAmid name { channel with receiver } frames now hearings).map fun _ => .done)
  /-- A command is queued ready-made. -/
  | queued {name : String} {channel : Channel} (command : Bytes) (priority : Priority)
      (hchannel : d.channel? name = some channel) :
      Effect d (.enqueue name command priority)
        { result := .ok (.wasEmpty channel.queue.isEmpty)
          dispatcher :=
            d.setChannel name { channel with queue := channel.queue.push command priority } }
  /-- A command is built, queued, and waited for if its decoder says so. -/
  | sent {name entity command : String} {value : Option Value} {channel : Channel}
      {decoder : Decoder} {frame : Bytes} (priority : Priority) (now : Time) (mood : Mood)
      (hdecoder : (d.sway mood).decoder? entity = some decoder)
      (hchannel : d.channel? name = some channel)
      (hbuild : (d.sway mood).build channel decoder command value = .ok frame) :
      Effect d (.send name entity command value priority now mood)
        { result := .ok (.wasEmpty channel.queue.isEmpty)
          dispatcher := d.setChannel name
            { channel with
              expectations := channel.expectations ++
                if (decoder.expectsAck command).isTrue then [⟨entity, command, now⟩] else []
              queue := channel.queue.push frame priority } }
  /-- The transport takes a command, if it may. -/
  | taken (name : String) (channel : Channel) (now : Time)
      (hchannel : d.channel? name = some channel) :
      Effect d (.next name now)
        (let expired := expireAcks name d.ackTimeout now channel.expectations
        let popped := channel.queue.pop now
        { result := .ok (.command popped.1)
          events := expired.1
          dispatcher := d.setChannel name
            { channel with expectations := expired.2, queue := popped.2 } })
  /-- There is no such channel, and so no worker. -/
  | idle {name : String} (move : WorkerMove) (hmissing : d.channel? name = none) :
      Effect d (.work name move) d.become
  | moved {name : String} {channel : Channel} (move : WorkerMove)
      (hchannel : d.channel? name = some channel) :
      Effect d (.work name move)
        (d.setChannel name { channel with receiver := channel.receiver.move move }).become

namespace Effect

variable (d : Dispatcher)

theorem insertChannel (o : Occurrence) (name : String) (profile : ChannelProfile)
    {receiver : Receiver} (hfresh : receiver.IsFresh profile.rx) :
    d.Effect o ((d.insertChannel name (.ofProfile profile receiver)).map fun _ => .done) := by
  unfold Dispatcher.insertChannel
  split
  · exact .refused _
  · rename_i hnew
    exact .added (by simpa [KeyMap.contains, channel?] using hnew) hfresh

theorem receive (o : Occurrence) (name : String) {take : Receiver → List Frame × Receiver}
    (htake : ∀ receiver : Receiver, receiver.HandsOver (take receiver)) (now : Time)
    (hearings : List Hearing) :
    d.Effect o ((d.receive name take now hearings).map fun _ => .done) := by
  unfold Dispatcher.receive
  cases hchannel : d.channel? name with
  | none => exact .refused _
  | some channel => exact .received now hearings hchannel (htake channel.receiver)

end Effect

/-- **What may happen.** -/
theorem effect_perform (d : Dispatcher) (o : Occurrence) : d.Effect o (d.perform o) := by
  cases o with
  | register decoder => exact .registered decoder
  | addChannel name profile => exact .insertChannel d _ name profile .inProcess
  | addChannelConfig name config evaluator =>
    rw [perform, addChannelConfig]
    cases config.resolve evaluator with
    | error cause => exact .refused _
    | ok profile => exact .insertChannel d _ name profile .inProcess
  | addOffloadedChannel name profile config aided =>
    exact .insertChannel d _ name profile (.offloaded config aided)
  | feed name bytes now meanwhile hearings =>
    exact .receive d _ name (fun _ => .fed bytes now meanwhile) now hearings
  | poll name now meanwhile hearings =>
    exact .receive d _ name (fun _ => .collected false meanwhile) now hearings
  | flush name now meanwhile hearings =>
    exact .receive d _ name (fun _ => .collected true meanwhile) now hearings
  | enqueue name command priority =>
    rw [perform, enqueue]
    cases hchannel : d.channel? name with
    | none => exact .refused _
    | some channel => exact .queued command priority hchannel
  | send name entity command value priority now mood =>
    rw [perform, sendAmid]
    rcases (d.sway mood).send_cases name entity command value priority now with
      ⟨error, hsend⟩ | ⟨decoder, channel, frame, hdecoder, hchannel, hbuild, hsend⟩
    · rw [hsend]
      exact .refused error
    · rw [hsend]
      exact .sent priority now mood hdecoder hchannel hbuild
  | next name now =>
    rw [perform, next]
    cases hchannel : d.channel? name with
    | none => exact .refused _
    | some channel => exact .taken name channel now hchannel
  | setAckTimeout timeout => exact .timed timeout
  | work name move =>
    rw [perform, moveWorker]
    cases hchannel : d.channel? name with
    | none => exact .idle move hchannel
    | some channel => exact .moved move hchannel

end Dispatcher
end Fieldbus
