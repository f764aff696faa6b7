import OfcBenchmark.OpenFlow

/-!
# The messages a fake switch builds

The builders of `myswitch.c`. Each writes into a buffer on the stack of its caller, which
is not cleared, and returns the number of bytes to send; bytes of that range no assignment
reaches keep what the stack held.
-/

namespace OfcBenchmark
open ByteMemory

/-- A string stored in a `char[n]`, padded with NULs. -/
def cString (n : ℕ) (s : String) : List UInt8 :=
  (s.toList.map fun c => UInt8.ofNat c.toNat).take n ++ List.replicate (n - s.toList.length) 0

/-! ## Configuration -/

/-- The static `switch_config` before any SET_CONFIG. -/
def switch_config : OfpSwitchConfig where
  header := { version := OFP131_VERSION, type := OFPT_GET_CONFIG_REPLY,
              length := OfpSwitchConfig.size, xid := 0 }
  flags := 0
  miss_send_len := 0

/-- `parseSetConfig`: the new value of the static `switch_config`. -/
def parseSetConfig (msg : Mem) : OfpSwitchConfig := OfpSwitchConfig.load msg

/-- `makeConfigReply`; the static `switch_config` is updated on the way. -/
def makeConfigReply (switch_config : OfpSwitchConfig) (xid : ℕ) (buf : Mem) :
    OfpSwitchConfig × Mem × ℕ :=
  let header := { switch_config.header with type := OFPT_GET_CONFIG_REPLY, xid := xid }
  let switch_config := { switch_config with header := header }
  (switch_config, buf.write 0 switch_config.bytes, OfpSwitchConfig.size)

/-! ## Replies -/

/-- `ofp13MakeFeaturesReply`. -/
def ofp13MakeFeaturesReply (id : ℤ) (xid : ℕ) (buf : Mem) : Mem × ℕ :=
  let buf := buf.write 0 [OFP131_VERSION]
  let buf := buf.write 4 (le32 xid)
  let buf := buf.write 2 (le16 (htons 32))
  let buf := buf.write 1 [Ofp131Type.featuresReply.toByte]
  let buf := buf.write 8 (le64 (htonll (toUnsigned 64 id)))
  let buf := buf.write 16 (le32 1)
  let buf := buf.write 21 [0]
  let buf := buf.write 20 [1]
  let buf := buf.write 24 (le32 0)
  (buf, 32)

/-- The header of a reply without a body, as the handler fills a local `ofp_header`. -/
def replyHeader (type : UInt8) (xid : ℕ) : OfpHeader where
  version := OFP131_VERSION
  type := type
  length := htons OfpHeader.size
  xid := xid

/-- The role reply, as the handler fills its local `role` of type `ofp131_role_request`,
whose four pad bytes are never assigned. -/
def roleReply (xid : ℕ) (role : Mem) : List UInt8 :=
  OfpHeader.bytes { version := OFP131_VERSION, type := Ofp131Type.roleReply.toByte,
                    length := htons 24, xid := xid }
    ++ le32 (htonl OFPCR_ROLE_MASTER) ++ role.read 12 4 ++ le64 0

/-- `struct ofp_desc_stats mp_desc`. -/
def mpDesc : List UInt8 :=
  cString 256 "OFC Benchmark - OpenFlow Controller Benchmark"
    ++ cString 256 "Software based on KulCloud Version of Cbench"
    ++ cString 256 "Version 1.0"
    ++ cString 32 "fsociety"
    ++ cString 256 "Virtual Switch from OfcBenchmarking Tool OF 1.3"

/-- One `ofp_port` of the port description: 64 bytes. -/
def portDesc (no : UInt8) (hwAddr : List UInt8) (nameEnd : UInt8) : List UInt8 :=
  [0x00, 0x00, 0x00, no, 0x00, 0x00, 0x00, 0x00] ++ hwAddr ++ [0x00, 0x00] ++
  [0x76, 0x65, 0x74, 0x68, nameEnd, 0x00, 0x00, 0x00,
   0x00, 0x00, 0x00, 0x00, 0x00, 0x00, 0x00, 0x00,
   0x00, 0x00, 0x00, 0x00, 0x00, 0x00, 0x00, 0x00,
   0x00, 0x00, 0x00, 0xc0, 0x00, 0x00, 0x00, 0x00,
   0x00, 0x00, 0x00, 0x00, 0x00, 0x00, 0x00, 0x00,
   0x00, 0x00, 0x00, 0x00, 0x00, 0x00, 0x00, 0x00]

/-- The four ports the switch describes. -/
def portDescs : List UInt8 :=
  portDesc 0x01 [0x1a, 0xc1, 0x51, 0xff, 0xef, 0x8a] 0x31
    ++ portDesc 0x02 [0xce, 0x2f, 0xa2, 0x87, 0xf6, 0x70] 0x33
    ++ portDesc 0x03 [0xca, 0x8a, 0x1e, 0xf3, 0x77, 0xef] 0x35
    ++ portDesc 0x04 [0xfa, 0xbc, 0x77, 0x8d, 0x7e, 0x0b] 0x37

/-- `HTON_OXM_HDR` on the header at address `p`. -/
def htonOxmHdr (m : Mem) (p : ℕ) : Mem := m.write p (le32 (htonl (m.load32 p)))

/-- Fill an `ofp_oxm_header` of the basic class and swap it: `length`, `oxm_class`, then
`OFP_OXM_SHDR_FIELD`, which keeps the mask bit, with the value bytes stored in between. -/
def writeOxm (m : Mem) (p : ℕ) (length : UInt8) (field : ℕ) (data : List UInt8) : Mem :=
  let m := m.write p [length]
  let m := m.write (p + 2) (le16 OFPXMC_OPENFLOW_BASIC)
  let m := m.write (p + 1) [UInt8.ofNat (field % 128 * 2 + (m (p + 1)).toNat % 2)]
  let m := m.write (p + 4) data
  htonOxmHdr m p

/-- The body of a TABLE_FEATURES reply, as it is built in the zeroed `reserved_mem`. -/
def tableFeatures : Mem :=
  let tf : Mem := fun _ => 0
  let tf := tf.write 0 (le16 (htons 0x48))
  let tf := tf.write 2 [0x00]
  let tf := tf.write 8 (cString 32 "First Table")
  let tf := tf.write 40 (le64 (htonll 0xffffffffffffffff))
  let tf := tf.write 48 (le64 (htonll 0xffffffffffffffff))
  let tf := tf.write 56 (le32 (htonl OFPTC_DEPRECATED_MASK))
  let tf := tf.write 60 (le32 (htonl 0xffffffff))
  let tf := tf.write 64 (le16 (htons OFPTFPT_MATCH))
  let tf := tf.write 66 (le16 (htons 0x08))
  writeOxm tf 68 2 0x15 []

/-- `ofp13MakeMultipartReply`. -/
def ofp13MakeMultipartReply (mp_type : ℕ) (xid : ℕ) (buf : Mem) : Mem × ℕ :=
  let buf := buf.write 0 [OFP131_VERSION]
  let buf := buf.write 4 (le32 xid)
  let buf := buf.write 1 [Ofp131Type.multipartReply.toByte]
  let buf := buf.write 8 (le16 (htons mp_type))
  let buf := buf.write 10 (le16 0)
  if mp_type = OFPMP_PORT_DESC then
    let buf := buf.write 2 (le16 (htons (16 + 256)))
    let buf := buf.write 16 portDescs
    (buf, 16 + 256)
  else if mp_type = OFPMP_DESC then
    let buf := buf.write 2 (le16 (htons (16 + 1056)))
    let buf := buf.write 16 mpDesc
    (buf, 16 + 1056)
  else if mp_type = OFPMP_TABLE_FEATURES then
    let buf := buf.write 2 (le16 (htons (16 + 72)))
    let buf := buf.write 16 (tableFeatures.read 0 (htons (tableFeatures.load16 0)))
    (buf, 16 + 72)
  else
    let buf := buf.write 2 (le16 (htons 16))
    (buf, 16)

/-! ## PACKET_INs -/

/-- The template of a probe. -/
def fakePacketIn : List UInt8 :=
  [0x97, 0x0a, 0x00, 0x52, 0x00, 0x00, 0x00, 0x00, 0x00, 0x00, 0x01, 0x01, 0x00, 0x40, 0x00, 0x47,
   0x00, 0x00, 0x80, 0x00, 0x00, 0x00, 0x00, 0x00, 0x00, 0x00, 0x00, 0x00, 0x00, 0x00, 0x00, 0x00,
   0x00, 0x00, 0x00, 0x01, 0x00, 0x00, 0x00, 0x00, 0x00, 0x00, 0x08, 0x00, 0x45, 0x00, 0x00, 0x32,
   0x00, 0x00, 0x00, 0x00, 0x40, 0xff, 0xf7, 0x2c, 0x45, 0xa8, 0x00, 0x1a, 0xc0, 0xa8, 0x01, 0x28,
   0x7a, 0x18, 0x58, 0x6b, 0x11, 0x08, 0x97, 0xf5, 0x19, 0xe2, 0x65, 0x7e, 0x07, 0xcc, 0x31, 0xc3,
   0x11, 0xc7]

/-- `ofp13MakePacketIn`. The Ethernet header is found 10 bytes past the 32 bytes of
`struct ofp131_packet_in`. -/
def ofp13MakePacketIn (switch_id xid buffer_id : ℤ) (buf : Mem) (mac_address : ℤ) : Mem × ℕ :=
  let buf := buf.write 0 fakePacketIn
  let buf := buf.write 0 [OFP131_VERSION]
  let buf := buf.write 1 [Ofp131Type.packetIn.toByte]
  let buf := buf.write 4 (le32 (htonl (toUnsigned 32 xid)))
  let buf := buf.write 2 (le16 (htons 82))
  let buf := buf.write 8 (le32 (htonl (toUnsigned 32 buffer_id)))
  let buf := buf.write 12 (le16 (htons 0x28))
  let buf := buf.write 15 [0]
  let buf := buf.write 16 (le64 0)
  let buf := buf.write 24 (le16 (htons 1))
  let buf := buf.write 26 (le16 (htons 0x0c))
  let buf := writeOxm buf 28 4 0 (le32 (htonl 4))
  let eth := 32 + 10
  let buf := buf.write (eth + 6 + 1) (le32 (toUnsigned 32 mac_address))
  let buf := buf.write (eth + 5) [UInt8.ofNat (toUnsigned 8 switch_id)]
  let buf := buf.write (eth + 6 + 5) [UInt8.ofNat (toUnsigned 8 switch_id)]
  let buf := buf.write (eth + 12) (le16 (htons 0x0800))
  (buf, 82)

/-- The template `gratuitous_arp_reply`. -/
def gratuitousArpReply : List UInt8 :=
  [0xff, 0xff, 0xff, 0xff, 0xff, 0xff, 0x00, 0x0c, 0x29, 0x1a, 0x29, 0x1a, 0x08, 0x06, 0x00, 0x01,
   0x08, 0x00, 0x06, 0x04, 0x00, 0x02, 0x00, 0x0c, 0x29, 0x1a, 0x29, 0x1a, 0x7f, 0x00, 0x00, 0x01,
   0x00, 0x0c, 0x29, 0x1a, 0x29, 0x1a, 0x7f, 0x00, 0x00, 0x01, 0x00, 0x00, 0x00, 0x00, 0x00, 0x00,
   0x00, 0x00, 0x00, 0x00, 0x00, 0x00, 0x00, 0x00, 0x00, 0x00, 0x00, 0x00, 0x00, 0x00, 0x00, 0x00]

/-- The message `ofp13SwitchLearnDstmac` builds in its zeroed buffer. The template is
copied to `&pkt_in[32+10]`, 42 structures of 32 bytes in. -/
def ofp13LearnDstmacPacketIn (id xid bufferId : ℤ) : Mem × ℕ :=
  let len := 32 + 64 + 32
  let idByte := UInt8.ofNat (toUnsigned 8 id)
  let mac_address_to_learn : List UInt8 := [0x80, 0x00, 0x00, 0x00, 0x00, idByte]
  let ip_address_to_learn : List UInt8 := [192, 168, 233, idByte]
  let buf : Mem := fun _ => 0
  let buf := buf.write 0 [OFP131_VERSION]
  let buf := buf.write 1 [Ofp131Type.packetIn.toByte]
  let buf := buf.write 4 (le32 (htonl (toUnsigned 32 xid)))
  let buf := buf.write 2 (le16 (htons len))
  let buf := buf.write 8 (le32 (htonl (toUnsigned 32 bufferId)))
  let buf := buf.write 12 (le16 (htons 64))
  let buf := buf.write 15 [0]
  let buf := buf.write 16 (le64 0)
  let buf := buf.write 14 [OFPR_NO_MATCH]
  let buf := buf.write 24 (le16 (htons 1))
  let buf := buf.write 26 (le16 (htons 0x0A))
  let buf := writeOxm buf 28 2 0x15 (le16 (htons 0x0002))
  let buf := buf.write ((32 + 10) * 32) gratuitousArpReply
  let eth := 32 + 10
  let buf := buf.write (eth + 6) mac_address_to_learn
  let buf := buf.write (eth + 12) (le16 (htons 0x0806))
  let arp_reply := eth + 14
  let buf := buf.write arp_reply (le64 (htonll 0x0001080006040002))
  let buf := buf.write (arp_reply + 8) mac_address_to_learn
  let buf := buf.write (arp_reply + 14) ip_address_to_learn
  let buf := buf.write (arp_reply + 18) mac_address_to_learn
  let buf := buf.write (arp_reply + 24) ip_address_to_learn
  (buf, len)

/-! ## Reading messages -/

/-- `packetOutIsLldp`. The tag is skipped by `+4` on an `ether_header *`, four structures
of 14 bytes. -/
def packetOutIsLldp (po : Mem) : Bool :=
  let ethernet := 16 + htons (po.load16 14)
  let ethertype := htons (po.load16 (ethernet + 12))
  let ethertype :=
    if ethertype = ETHERTYPE_VLAN then htons (po.load16 (ethernet + 4 * 14 + 12)) else ethertype
  ethertype == ETHERTYPE_LLDP

end OfcBenchmark
