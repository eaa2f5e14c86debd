import Fieldbus.Channel.Profile

/-!
# What a resolved channel can rely on

`ChannelConfig.resolve` refuses a description of which it cannot make a channel.
`resolve_eq_ok` reads off an accepted description what has been made of it, and the lemmas behind it
say what that means for the parts of the channel.
-/

set_option autoImplicit false

namespace Fieldbus

/-- Two steps that succeed together succeed one by one. -/
theorem exists_of_bind_eq_ok {ε α β : Type} {x : Except ε α} {f : α → Except ε β} {b : β}
    (h : x >>= f = .ok b) : ∃ a, x = .ok a ∧ f a = .ok b := by
  cases x with
  | error e => cases h
  | ok a => exact ⟨a, rfl, h⟩

namespace ChannelConfig

variable {config : ChannelConfig} {evaluator : Option Evaluator} {profile : ChannelProfile}

/-- The parts of the channel that a description resolves to. -/
theorem resolve_eq_ok (h : config.resolve evaluator = .ok profile) :
    resolveSide config.rxChecksum config.rxChecksum2 evaluator = .ok profile.rx.checksum ∧
      resolveSide config.txChecksum config.txChecksum2 evaluator = .ok profile.tx.checksum ∧
      config.checkBounds = .ok () ∧
      config.delimiter profile.rx.checksum = .ok profile.rx.delimiter ∧
      profile.rx.header = config.rxHeader ∧ profile.rx.footer = config.rxFooter := by
  unfold resolve at h
  obtain ⟨rxChecksum, hrx, h⟩ := exists_of_bind_eq_ok h
  obtain ⟨txChecksum, htx, h⟩ := exists_of_bind_eq_ok h
  obtain ⟨_, hbounds, h⟩ := exists_of_bind_eq_ok h
  obtain ⟨delimiter, hdelimiter, h⟩ := exists_of_bind_eq_ok h
  cases h
  exact ⟨hrx, htx, hbounds, hdelimiter, rfl, rfl⟩

/-- A fixed length leaves room for a byte of data. -/
theorem overhead_lt_of_resolve (h : config.resolve evaluator = .ok profile) {length : Nat}
    (hfixed : profile.rx.delimiter = .fixedLength length) : profile.rx.overhead < length := by
  obtain ⟨-, -, -, hdelimiter, hheader, hfooter⟩ := resolve_eq_ok h
  rw [hfixed, delimiter] at hdelimiter
  rw [RxFraming.overhead, hheader, hfooter]
  split at hdelimiter
  · simp only at hdelimiter
    split at hdelimiter
    · cases hdelimiter
    · cases hdelimiter
      omega
  · split at hdelimiter
    · cases hdelimiter
    · split at hdelimiter <;> cases hdelimiter

/-- The time-out of the channel is that of its description. -/
theorem timeout_of_resolve (h : config.resolve evaluator = .ok profile) :
    profile.rx.timeout = config.rxTimeout := by
  unfold resolve at h
  obtain ⟨_, -, h⟩ := exists_of_bind_eq_ok h
  obtain ⟨_, -, h⟩ := exists_of_bind_eq_ok h
  obtain ⟨_, -, h⟩ := exists_of_bind_eq_ok h
  obtain ⟨_, -, h⟩ := exists_of_bind_eq_ok h
  cases h
  rfl

/-- Without an evaluator no slot holds a script. -/
theorem isScript_of_resolveSide {one two : Option ChecksumSetting} {checksum : Checksum}
    (h : resolveSide one two none = .ok checksum) : checksum.isScript = false := by
  have hslot {setting : ChecksumSetting} {slot : ChecksumWidth}
      (h : Checksum.resolve setting slot none = .ok checksum) : checksum.isScript = false := by
    cases setting with
    | named name =>
      rw [Checksum.resolve] at h
      split at h
      · cases h
      · split at h <;> cases h
        rfl
    | script expression => cases h
  cases two with
  | some setting => exact hslot h
  | none =>
    cases one with
    | some setting => exact hslot h
    | none => cases h; rfl

/-- Without an evaluator no channel uses a script. -/
theorem usesScript_of_resolve (h : config.resolve none = .ok profile) :
    profile.usesScript = false := by
  obtain ⟨hrx, htx, -⟩ := resolve_eq_ok h
  rw [ChannelProfile.usesScript, isScript_of_resolveSide hrx, isScript_of_resolveSide htx]
  rfl

end ChannelConfig
end Fieldbus
