import OfcBenchmark.Lib.Memory

/-!
# OpenFlow constants and structures

The part of `openflow.h` (OpenFlow 1.0) and `openflow131.h` (OpenFlow 1.3.1) that the
fake switch uses. Integer fields hold the value the C field holds, so a field in network
order is a byte-swapped number; the host is little-endian (`htons`, `htonl`, `htonll`).
-/

namespace OfcBenchmark
open ByteMemory

/-! ## Byte order -/

/-- `htons` and `ntohs`. -/
abbrev htons (n : ℕ) : ℕ := bswap16 n

/-- `htonl` and `ntohl`. -/
abbrev htonl (n : ℕ) : ℕ := bswap32 n

/-- `htonll` and `ntohll`. -/
abbrev htonll (n : ℕ) : ℕ := bswap64 n

/-- Swapping twice gives a 16-bit value back. -/
theorem htons_htons {n : ℕ} (h : n < 65536) : htons (htons n) = n := Mem.bswap16_bswap16 h

/-- An `int` converted to an unsigned integer of `w` bits. -/
def toUnsigned (w : ℕ) (n : ℤ) : ℕ := (n % 2 ^ w).toNat

/-! ## Constants -/

def BUFLEN : ℕ := 65536

theorem BUFLEN_pos : 0 < BUFLEN := by decide
def NUM_BUFFER_IDS : ℤ := 100000
def OFP131_VERSION : UInt8 := 0x04

def OFPT_HELLO : UInt8 := 0
def OFPT_ECHO_REPLY : UInt8 := 3
def OFPT_GET_CONFIG_REPLY : UInt8 := 8

def OFPFC_ADD : ℕ := 0
def OFPFC_MODIFY_STRICT : ℕ := 2

def ETHERTYPE_LLDP : ℕ := 0x88cc
def ETHERTYPE_VLAN : ℕ := 0x8100

def OFPMP_DESC : ℕ := 0
def OFPMP_GROUP_FEATURES : ℕ := 8
def OFPMP_METER_FEATURES : ℕ := 11
def OFPMP_TABLE_FEATURES : ℕ := 12
def OFPMP_PORT_DESC : ℕ := 13

def OFPR_NO_MATCH : UInt8 := 0
def OFPCR_ROLE_MASTER : ℕ := 2
def OFPTC_DEPRECATED_MASK : ℕ := 3
def OFPTFPT_MATCH : ℕ := 8
def OFPXMC_OPENFLOW_BASIC : ℕ := 0x8000

/-! ## Message types -/

/-- `enum ofp131_type`. -/
inductive Ofp131Type
  | hello | error | echoRequest | echoReply | experimenter
  | featuresRequest | featuresReply | getConfigRequest | getConfigReply | setConfig
  | packetIn | flowRemoved | portStatus
  | packetOut | flowMod | groupMod | portMod | tableMod
  | multipartRequest | multipartReply
  | barrierRequest | barrierReply
  | queueGetConfigRequest | queueGetConfigReply
  | roleRequest | roleReply
  | getAsyncRequest | getAsyncReply | setAsync
  | meterMod
deriving DecidableEq, Repr

namespace Ofp131Type

/-- The value of the `type` byte. -/
def toByte : Ofp131Type → UInt8
  | hello => 0 | error => 1 | echoRequest => 2 | echoReply => 3 | experimenter => 4
  | featuresRequest => 5 | featuresReply => 6 | getConfigRequest => 7
  | getConfigReply => 8 | setConfig => 9
  | packetIn => 10 | flowRemoved => 11 | portStatus => 12
  | packetOut => 13 | flowMod => 14 | groupMod => 15 | portMod => 16 | tableMod => 17
  | multipartRequest => 18 | multipartReply => 19
  | barrierRequest => 20 | barrierReply => 21
  | queueGetConfigRequest => 22 | queueGetConfigReply => 23
  | roleRequest => 24 | roleReply => 25
  | getAsyncRequest => 26 | getAsyncReply => 27 | setAsync => 28
  | meterMod => 29

/-- The type a `type` byte stands for, if any. -/
def ofByte (b : UInt8) : Option Ofp131Type :=
  match b.toNat with
  | 0 => some hello | 1 => some error | 2 => some echoRequest | 3 => some echoReply
  | 4 => some experimenter | 5 => some featuresRequest | 6 => some featuresReply
  | 7 => some getConfigRequest | 8 => some getConfigReply | 9 => some setConfig
  | 10 => some packetIn | 11 => some flowRemoved | 12 => some portStatus
  | 13 => some packetOut | 14 => some flowMod | 15 => some groupMod | 16 => some portMod
  | 17 => some tableMod | 18 => some multipartRequest | 19 => some multipartReply
  | 20 => some barrierRequest | 21 => some barrierReply
  | 22 => some queueGetConfigRequest | 23 => some queueGetConfigReply
  | 24 => some roleRequest | 25 => some roleReply | 26 => some getAsyncRequest
  | 27 => some getAsyncReply | 28 => some setAsync | 29 => some meterMod
  | _ => none

end Ofp131Type

/-! ## Structures -/

/-- `struct ofp_header`. -/
structure OfpHeader where
  version : UInt8
  type : UInt8
  length : ℕ
  xid : ℕ
deriving DecidableEq, Repr

/-- `sizeof(struct ofp_header)`. -/
def OfpHeader.size : ℕ := 8

/-- The header as it lies in memory. -/
def OfpHeader.bytes (h : OfpHeader) : List UInt8 :=
  [h.version, h.type] ++ le16 h.length ++ le32 h.xid

@[simp] theorem OfpHeader.length_bytes (h : OfpHeader) : h.bytes.length = 8 := rfl

/-- The header a pointer to one points to. -/
def OfpHeader.load (m : Mem) : OfpHeader where
  version := m 0
  type := m 1
  length := m.load16 2
  xid := m.load32 4

/-- `struct ofp_switch_config`. -/
structure OfpSwitchConfig where
  header : OfpHeader
  flags : ℕ
  miss_send_len : ℕ
deriving DecidableEq, Repr

/-- `sizeof(struct ofp_switch_config)`. -/
def OfpSwitchConfig.size : ℕ := 12

/-- The structure as it lies in memory. -/
def OfpSwitchConfig.bytes (c : OfpSwitchConfig) : List UInt8 :=
  c.header.bytes ++ le16 c.flags ++ le16 c.miss_send_len

@[simp] theorem OfpSwitchConfig.length_bytes (c : OfpSwitchConfig) : c.bytes.length = 12 := rfl

/-- The structure a pointer to one points to. -/
def OfpSwitchConfig.load (m : Mem) : OfpSwitchConfig where
  header := OfpHeader.load m
  flags := m.load16 8
  miss_send_len := m.load16 10

/-- `struct timeval`. -/
structure Timeval where
  tv_sec : ℤ
  tv_usec : ℤ
deriving DecidableEq, Repr

end OfcBenchmark
