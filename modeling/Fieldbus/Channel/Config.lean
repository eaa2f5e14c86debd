import Fieldbus.Bytes
import Fieldbus.Checksum.Setting

/-!
# Channels as they are written down

A channel is described by one flat record: what received frames look like (`rx`), and how commands
are wrapped (`tx`).  Nothing in it is checked beyond the shape of the document; `Channel.Profile`
says what makes a description usable.
-/

set_option autoImplicit false

namespace Fieldbus

/-- The description of a channel. -/
structure ChannelConfig where
  rxHeader : Bytes := []
  rxFooter : Bytes := []
  /-- The slot for a checksum of one byte. -/
  rxChecksum : Option ChecksumSetting := none
  /-- The slot for a checksum of two bytes, which goes before the other one. -/
  rxChecksum2 : Option ChecksumSetting := none
  /-- The length of every frame, header and footer included. -/
  rxLength : Option Nat := none
  rxMinLength : Option Nat := none
  rxMaxLength : Option Nat := none
  /-- Milliseconds without a byte after which a partial frame is dropped. -/
  rxTimeout : Nat := 10
  /-- The bytes that may begin a frame. -/
  rxStartBytes : Option Bytes := none
  txHeader : Bytes := []
  txFooter : Bytes := []
  txChecksum : Option ChecksumSetting := none
  txChecksum2 : Option ChecksumSetting := none
  /-- Milliseconds between two commands. -/
  txDelay : Nat := 50
deriving DecidableEq, Repr

namespace ChannelConfig

/-- The members of the description of a channel. -/
def shape : Json.Shape :=
  .flat
    ["rx_header", "rx_footer", "rx_checksum", "rx_checksum2", "rx_length", "rx_min_length",
      "rx_max_length", "rx_timeout_ms", "rx_valid_headers", "tx_header", "tx_footer", "tx_checksum",
      "tx_checksum2", "tx_delay_ms"]

/-- The description of a channel, read from a document.  Every part has a default. -/
def ofJson? : Json → Option ChannelConfig :=
  Json.Record.read do
    let rxHeader ← Json.Record.defaulted "rx_header" [] Json.bytes?
    let rxFooter ← Json.Record.defaulted "rx_footer" [] Json.bytes?
    let rxChecksum ← Json.Record.optional "rx_checksum" ChecksumSetting.ofJson?
    let rxChecksum2 ← Json.Record.optional "rx_checksum2" ChecksumSetting.ofJson?
    let rxLength ← Json.Record.optional "rx_length" Json.size?
    let rxMinLength ← Json.Record.optional "rx_min_length" Json.size?
    let rxMaxLength ← Json.Record.optional "rx_max_length" Json.size?
    let rxTimeout ← Json.Record.defaulted "rx_timeout_ms" 10 Json.size?
    let rxStartBytes ← Json.Record.optional "rx_valid_headers" Json.bytes?
    let txHeader ← Json.Record.defaulted "tx_header" [] Json.bytes?
    let txFooter ← Json.Record.defaulted "tx_footer" [] Json.bytes?
    let txChecksum ← Json.Record.optional "tx_checksum" ChecksumSetting.ofJson?
    let txChecksum2 ← Json.Record.optional "tx_checksum2" ChecksumSetting.ofJson?
    let txDelay ← Json.Record.defaulted "tx_delay_ms" 50 Json.size?
    return {
      rxHeader, rxFooter, rxChecksum, rxChecksum2, rxLength, rxMinLength, rxMaxLength, rxTimeout,
      rxStartBytes, txHeader, txFooter, txChecksum, txChecksum2, txDelay }

/-- The description of a channel as a document, every part written out. -/
def toJson (config : ChannelConfig) : Json :=
  Json.ofMembers
    [("rx_header", .ofBytes config.rxHeader), ("rx_footer", .ofBytes config.rxFooter),
      ("rx_checksum", Json.ofOption ChecksumSetting.toJson config.rxChecksum),
      ("rx_checksum2", Json.ofOption ChecksumSetting.toJson config.rxChecksum2),
      ("rx_length", Json.ofOption Json.nat config.rxLength),
      ("rx_min_length", Json.ofOption Json.nat config.rxMinLength),
      ("rx_max_length", Json.ofOption Json.nat config.rxMaxLength),
      ("rx_timeout_ms", .nat config.rxTimeout),
      ("rx_valid_headers", Json.ofOption Json.ofBytes config.rxStartBytes),
      ("tx_header", .ofBytes config.txHeader), ("tx_footer", .ofBytes config.txFooter),
      ("tx_checksum", Json.ofOption ChecksumSetting.toJson config.txChecksum),
      ("tx_checksum2", Json.ofOption ChecksumSetting.toJson config.txChecksum2),
      ("tx_delay_ms", .nat config.txDelay)]

end ChannelConfig
end Fieldbus
