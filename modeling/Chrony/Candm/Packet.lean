import Chrony.Addressing
import Chrony.Lib.Bytes
import Chrony.NetworkFloat

/-!
# Packets of the Command Protocol

The requests and replies of `candm.h`, and their lengths in `pktlength.c`. The lengths are computed
from the declarations of the structures. A request has the length of its structure and padding up
to the length of the reply which it asks for.

A received request is the memory of a `CMD_Request`, of which the fields are converted to the host
order when they are read. What is behind the end of the message can have any value.

## Main results

* `requestLengths`, `replyLengths`: the tables of `pktlength.c`.
* `Memory.ip`, `Memory.uint`, `Memory.float`: the fields of a received request.
-/

namespace Chrony.Candm

open Lib.Bytes

/-! ### Structures in memory -/

/-- The size and the alignment of a type. -/
structure CType where
  size : ℕ
  align : ℕ

/-- An offset moved to a multiple of an alignment. -/
def alignUp (offset align : ℕ) : ℕ := (offset + align - 1) / align * align

/-- The offset at the end of the fields. -/
def endOffset (fields : List CType) : ℕ :=
  fields.foldl (fun offset field => alignUp offset field.align + field.size) 0

/-- The offset of a field. -/
def offsetOf (fields : List CType) (k : ℕ) : ℕ :=
  alignUp (endOffset (fields.take k)) (fields.getD k ⟨1, 1⟩).align

/-- The largest alignment. -/
def maxAlign (types : List CType) : ℕ := types.foldl (fun align type => max align type.align) 1

/-- An array. -/
def CType.array (n : ℕ) (type : CType) : CType := ⟨n * type.size, type.align⟩

/-- A structure. -/
def CType.struct (fields : List CType) : CType :=
  ⟨alignUp (endOffset fields) (maxAlign fields), maxAlign fields⟩

/-- A union. -/
def CType.union (types : List CType) : CType :=
  ⟨alignUp (types.foldl (fun size type => max size type.size) 0) (maxAlign types), maxAlign types⟩

/-- `uint8_t` and `int8_t`. -/
def uint8 : CType := ⟨1, 1⟩

/-- `uint16_t` and `int16_t`. -/
def uint16 : CType := ⟨2, 2⟩

/-- `uint32_t` and `int32_t`. -/
def uint32 : CType := ⟨4, 4⟩

/-- `Float`. -/
def float : CType := .struct [uint32]

/-- `Timespec`. -/
def timespec : CType := .struct [uint32, uint32, uint32]

/-- `Integer64`. -/
def integer64 : CType := .struct [uint32, uint32]

/-- `IPAddr`. -/
def ipAddr : CType := .struct [.union [uint32, .array 16 uint8, uint32], uint16, uint16]

/-! ### Requests -/

/-- The request codes. -/
inductive Command
  | null | online | offline | burst | modifyMinpoll | modifyMaxpoll | dump | modifyMaxdelay
  | modifyMaxdelayratio | modifyMaxupdateskew | logon | settime | localRef | manual | nSources
  | sourceData | rekey | allow | allowall | deny | denyall | cmdallow | cmdallowall | cmddeny
  | cmddenyall | accheck | cmdaccheck | addServer | addPeer | delSource | writertc | dfreq
  | doffset | tracking | sourcestats | rtcreport | trimrtc | cyclelogs | subnetsAccessed
  | clientAccesses | clientAccessesByIndex | manualList | manualDelete | makestep | activity
  | modifyMinstratum | modifyPolltarget | modifyMaxdelaydevratio | reselect | reselectdistance
  | modifyMakestep | smoothing | smoothtime | refresh | serverStats | clientAccessesByIndex2
  | local2 | ntpData | addServer2 | addPeer2 | addServer3 | addPeer3 | shutdown | onoffline
  | addSource | ntpSourceName | resetSources | authData | clientAccessesByIndex3 | selectData
  | reloadSources | doffset2 | modifySelectopts | modifyOffset | local3
  deriving DecidableEq, Repr

/-- `N_REQUEST_TYPES`. -/
def nRequestTypes : ℕ := 75

/-- The code of a request. -/
def Command.code (c : Command) : ℕ := c.ctorIdx

/-- The request with a code. -/
def Command.ofCode (n : ℕ) : Option Command :=
  if n < nRequestTypes then some (.ofNat n) else none

theorem Command.code_lt (c : Command) : c.code < nRequestTypes := by
  cases c <;> decide

theorem Command.ofCode_code (c : Command) : Command.ofCode c.code = some c := by
  cases c <;> rfl

/-- The fields of `CMD_Request` before the data. -/
def requestHeader : List CType :=
  [uint8, uint8, uint8, uint8, uint16, uint16, uint32, uint32, uint32]

/-- `REQ_Online`, `REQ_Offline`: the mask and the address. -/
def reqOnline : List CType := [ipAddr, ipAddr]

/-- `REQ_Burst`: the mask, the address and the numbers of good and of all samples. -/
def reqBurst : List CType := [ipAddr, ipAddr, uint32, uint32]

/-- The requests which have an address and one value. -/
def reqModify : List CType := [ipAddr, uint32]

/-- The requests with one value. -/
def reqValue : List CType := [uint32]

/-- The requests with one floating-point number. -/
def reqFloat : List CType := [float]

/-- The requests with one address. -/
def reqAddress : List CType := [ipAddr]

/-- `REQ_Modify_Makestep`. -/
def reqModifyMakestep : List CType := [uint32, float]

/-- `REQ_Settime`. -/
def reqSettime : List CType := [timespec]

/-- `REQ_Local`. -/
def reqLocal : List CType := [uint32, uint32, float, uint32, float, float, float]

/-- `REQ_NTP_Source`. -/
def reqNtpSource : List CType :=
  [uint32, .array 256 uint8] ++ List.replicate 12 uint32 ++ List.replicate 6 float ++
    [uint32, uint32, uint32, float, uint32]

/-- `REQ_ClientAccessesByIndex`. -/
def reqClientAccessesByIndex : List CType := [uint32, uint32, uint32, uint32]

/-- `REQ_Modify_SelectOpts`. -/
def reqModifySelectOpts : List CType := [ipAddr, uint32, uint32, uint32]

/-- `REQ_Modify_Offset`. -/
def reqModifyOffset : List CType := [ipAddr, uint32, float]

/-! ### Replies -/

/-- The reply codes. -/
inductive ReplyCode
  | unused | null | nSources | sourceData | manualTimestamp | tracking | sourcestats | rtc
  | subnetsAccessed | clientAccesses | clientAccessesByIndex | manualList | activity | smoothing
  | serverStats | clientAccessesByIndex2 | ntpData | manualTimestamp2 | manualList2
  | ntpSourceName | authData | clientAccessesByIndex3 | serverStats2 | selectData | serverStats3
  | serverStats4 | ntpData2
  deriving DecidableEq, Repr

/-- The fields of `CMD_Reply` before the data. -/
def replyHeader : List CType :=
  [uint8, uint8, uint8, uint8, uint16, uint16, uint16, uint16, uint16, uint16, uint32, uint32,
    uint32]

/-- `RPY_Null`. -/
def rpyNull : List CType := []

/-- `RPY_N_Sources`. -/
def rpyNSources : List CType := [uint32]

/-- `RPY_Source_Data`. -/
def rpySourceData : List CType :=
  [ipAddr, uint16, uint16, uint16, uint16, uint16, uint16, uint32, float, float, float]

/-- `RPY_Tracking`. -/
def rpyTracking : List CType :=
  [uint32, ipAddr, uint16, uint16, timespec] ++ List.replicate 9 float

/-- `RPY_Sourcestats`. -/
def rpySourcestats : List CType :=
  [uint32, ipAddr, uint32, uint32, uint32] ++ List.replicate 5 float

/-- `RPY_Rtc`. -/
def rpyRtc : List CType := [timespec, uint16, uint16, uint32, float, float]

/-- `RPY_ManualTimestamp`. -/
def rpyManualTimestamp : List CType := [float, float, float]

/-- `MAX_CLIENT_ACCESSES`. -/
def maxClientAccesses : ℕ := 8

/-- `RPY_ClientAccesses_Client`. -/
def rpyClientAccessesClient : CType :=
  .struct ([ipAddr] ++ List.replicate 6 uint32 ++ List.replicate 4 uint8 ++
    List.replicate 3 uint32)

/-- `RPY_ClientAccessesByIndex`. -/
def rpyClientAccessesByIndex : List CType :=
  [uint32, uint32, uint32, .array maxClientAccesses rpyClientAccessesClient]

/-- `RPY_ServerStats`. -/
def rpyServerStats : List CType := List.replicate 17 integer64 ++ [.array 4 integer64]

/-- `MAX_MANUAL_LIST_SAMPLES`. -/
def maxManualListSamples : ℕ := 16

/-- `RPY_ManualList`. -/
def rpyManualList : List CType :=
  [uint32, .array maxManualListSamples (.struct [timespec, float, float, float])]

/-- `RPY_Activity`. -/
def rpyActivity : List CType := List.replicate 5 uint32

/-- `RPY_Smoothing`. -/
def rpySmoothing : List CType := [uint32] ++ List.replicate 5 float

/-- `RPY_NTPData`. -/
def rpyNtpData : List CType :=
  [ipAddr, ipAddr, uint16] ++ List.replicate 6 uint8 ++ [float, float, uint32, timespec] ++
    List.replicate 5 float ++ [uint16, uint8, uint8] ++ List.replicate 8 uint32 ++
    [.array 4 uint32]

/-- `RPY_NTPSourceName`. -/
def rpyNtpSourceName : List CType := [.array 256 uint8]

/-- `RPY_AuthData`. -/
def rpyAuthData : List CType :=
  [uint16, uint16, uint32, uint16, uint16, uint32, uint16, uint16, uint16, uint16]

/-- `RPY_SelectData`. -/
def rpySelectData : List CType :=
  [uint32, ipAddr, uint8, uint8, uint8, uint8, uint16, uint16, uint32, float, float, float]

/-! ### Lengths -/

/-- The offset of the field `EOR`, which is behind the other fields of a structure. -/
def offsetOfEor (header fields : List CType) : ℕ :=
  endOffset header + alignUp (endOffset fields) uint32.align

/-- `PADDING_LENGTH_`. -/
def paddingLength (requestLength replyLength : ℕ) : ℕ :=
  if requestLength < replyLength then replyLength - requestLength else 0

/-- `REQ_LENGTH_ENTRY`: the length of the request and of its padding. -/
def reqLengthEntry (request reply : List CType) : ℕ × ℕ :=
  (offsetOfEor requestHeader request,
    paddingLength (offsetOfEor requestHeader request) (offsetOfEor replyHeader reply))

/-- `request_lengths`. -/
def requestLengths : Command → ℕ × ℕ
  | .null => (0, 0)
  | .online => reqLengthEntry reqOnline rpyNull
  | .offline => reqLengthEntry reqOnline rpyNull
  | .burst => reqLengthEntry reqBurst rpyNull
  | .modifyMinpoll => reqLengthEntry reqModify rpyNull
  | .modifyMaxpoll => reqLengthEntry reqModify rpyNull
  | .dump => reqLengthEntry reqValue rpyNull
  | .modifyMaxdelay => reqLengthEntry reqModify rpyNull
  | .modifyMaxdelayratio => reqLengthEntry reqModify rpyNull
  | .modifyMaxupdateskew => reqLengthEntry reqFloat rpyNull
  | .logon => (0, 0)
  | .settime => reqLengthEntry reqSettime rpyManualTimestamp
  | .localRef => (0, 0)
  | .manual => reqLengthEntry reqValue rpyNull
  | .nSources => reqLengthEntry [] rpyNSources
  | .sourceData => reqLengthEntry reqValue rpySourceData
  | .rekey => reqLengthEntry [] rpyNull
  | .allow => reqLengthEntry reqModify rpyNull
  | .allowall => reqLengthEntry reqModify rpyNull
  | .deny => reqLengthEntry reqModify rpyNull
  | .denyall => reqLengthEntry reqModify rpyNull
  | .cmdallow => reqLengthEntry reqModify rpyNull
  | .cmdallowall => reqLengthEntry reqModify rpyNull
  | .cmddeny => reqLengthEntry reqModify rpyNull
  | .cmddenyall => reqLengthEntry reqModify rpyNull
  | .accheck => reqLengthEntry reqAddress rpyNull
  | .cmdaccheck => reqLengthEntry reqAddress rpyNull
  | .addServer => (0, 0)
  | .addPeer => (0, 0)
  | .delSource => reqLengthEntry reqAddress rpyNull
  | .writertc => reqLengthEntry [] rpyNull
  | .dfreq => reqLengthEntry reqFloat rpyNull
  | .doffset => (0, 0)
  | .tracking => reqLengthEntry [] rpyTracking
  | .sourcestats => reqLengthEntry reqValue rpySourcestats
  | .rtcreport => reqLengthEntry [] rpyRtc
  | .trimrtc => reqLengthEntry [] rpyNull
  | .cyclelogs => reqLengthEntry [] rpyNull
  | .subnetsAccessed => (0, 0)
  | .clientAccesses => (0, 0)
  | .clientAccessesByIndex => (0, 0)
  | .manualList => reqLengthEntry [] rpyManualList
  | .manualDelete => reqLengthEntry reqValue rpyNull
  | .makestep => reqLengthEntry [] rpyNull
  | .activity => reqLengthEntry [] rpyActivity
  | .modifyMinstratum => reqLengthEntry reqModify rpyNull
  | .modifyPolltarget => reqLengthEntry reqModify rpyNull
  | .modifyMaxdelaydevratio => reqLengthEntry reqModify rpyNull
  | .reselect => reqLengthEntry [] rpyNull
  | .reselectdistance => reqLengthEntry reqFloat rpyNull
  | .modifyMakestep => reqLengthEntry reqModifyMakestep rpyNull
  | .smoothing => reqLengthEntry [] rpySmoothing
  | .smoothtime => reqLengthEntry reqValue rpyNull
  | .refresh => reqLengthEntry [] rpyNull
  | .serverStats => reqLengthEntry [] rpyServerStats
  | .clientAccessesByIndex2 => (0, 0)
  | .local2 => (0, 0)
  | .ntpData => reqLengthEntry reqAddress rpyNtpData
  | .addServer2 => (0, 0)
  | .addPeer2 => (0, 0)
  | .addServer3 => (0, 0)
  | .addPeer3 => (0, 0)
  | .shutdown => reqLengthEntry [] rpyNull
  | .onoffline => reqLengthEntry [] rpyNull
  | .addSource => reqLengthEntry reqNtpSource rpyNull
  | .ntpSourceName => reqLengthEntry reqAddress rpyNtpSourceName
  | .resetSources => reqLengthEntry [] rpyNull
  | .authData => reqLengthEntry reqAddress rpyAuthData
  | .clientAccessesByIndex3 => reqLengthEntry reqClientAccessesByIndex rpyClientAccessesByIndex
  | .selectData => reqLengthEntry reqValue rpySelectData
  | .reloadSources => reqLengthEntry [] rpyNull
  | .doffset2 => reqLengthEntry reqFloat rpyNull
  | .modifySelectopts => reqLengthEntry reqModifySelectOpts rpyNull
  | .modifyOffset => reqLengthEntry reqModifyOffset rpyNull
  | .local3 => reqLengthEntry reqLocal rpyNull

/-- `reply_lengths`. -/
def replyLengths : ReplyCode → ℕ
  | .null => offsetOfEor replyHeader rpyNull
  | .nSources => offsetOfEor replyHeader rpyNSources
  | .sourceData => offsetOfEor replyHeader rpySourceData
  | .tracking => offsetOfEor replyHeader rpyTracking
  | .sourcestats => offsetOfEor replyHeader rpySourcestats
  | .rtc => offsetOfEor replyHeader rpyRtc
  | .activity => offsetOfEor replyHeader rpyActivity
  | .smoothing => offsetOfEor replyHeader rpySmoothing
  | .manualTimestamp2 => offsetOfEor replyHeader rpyManualTimestamp
  | .manualList2 => offsetOfEor replyHeader rpyManualList
  | .ntpSourceName => offsetOfEor replyHeader rpyNtpSourceName
  | .authData => offsetOfEor replyHeader rpyAuthData
  | .clientAccessesByIndex3 => offsetOfEor replyHeader rpyClientAccessesByIndex
  | .selectData => offsetOfEor replyHeader rpySelectData
  | .serverStats4 => offsetOfEor replyHeader rpyServerStats
  | .ntpData2 => offsetOfEor replyHeader rpyNtpData
  | _ => 0

/-! ### The structures of messages -/

/-- The types of the requests' data. -/
def requestData : List (List CType) :=
  [[], reqOnline, reqBurst, reqModify, reqValue, reqFloat, reqAddress, reqModifyMakestep,
    reqSettime, reqLocal, reqNtpSource, reqClientAccessesByIndex, reqModifySelectOpts,
    reqModifyOffset]

/-- The union of the structures which end with `EOR`. -/
def dataUnion (types : List (List CType)) : CType :=
  .union (types.map fun fields => .struct (fields ++ [uint32]))

/-- `MAX_PADDING_LENGTH`. -/
def maxPaddingLength : ℕ := 484

/-- `CMD_Request`. -/
def cmdRequest : CType :=
  .struct (requestHeader ++ [dataUnion requestData, .array maxPaddingLength uint8])

/-- The bytes of a `CMD_Request`. -/
abbrev Memory := ℕ → Byte

namespace Memory

variable (m : Memory)

/-- A byte. -/
def uint8 (position : ℕ) : ℕ := (m position).toNat

/-- `ntohs`. -/
def ntohs (position : ℕ) : ℕ := decode16 [m position, m (position + 1)]

/-- `ntohl`. -/
def ntohl (position : ℕ) : BitVec 32 :=
  BitVec.ofNat 32
    (decode32 [m position, m (position + 1), m (position + 2), m (position + 3)])

/-- `UTI_IPNetworkToHost`. -/
def ipNetworkToHost (position : ℕ) : IPAddr :=
  let family := m.ntohs (position + 16)
  if family = 1 then .inet4 (m.ntohl position)
  else if family = 2 then .inet6 fun i => m (position + i)
  else if family = 3 then .id (m.ntohl position)
  else .unspec

/-- `TV_NOHIGHSEC`. -/
def noHighSec : BitVec 32 := 0x7fffffff

/-- `UTI_TimespecNetworkToHost`. -/
def timespecNetworkToHost (position : ℕ) : Timespec :=
  let secHigh := m.ntohl position
  let secHigh := if secHigh = noHighSec then 0 else secHigh
  ⟨(secHigh ++ m.ntohl (position + 4)).toInt,
    min (m.ntohl (position + 8)).toNat 999999999⟩

/-- The position of a field of the data. -/
def field (layout : List CType) (k : ℕ) : ℕ := endOffset requestHeader + offsetOf layout k

/-- An address in the data. -/
def ip (layout : List CType) (k : ℕ) : IPAddr := m.ipNetworkToHost (field layout k)

/-- An unsigned number in the data. -/
def uint (layout : List CType) (k : ℕ) : BitVec 32 := m.ntohl (field layout k)

/-- A number in the data which is converted to `int`. -/
def int (layout : List CType) (k : ℕ) : ℤ := (m.uint layout k).toInt

/-- A floating-point number in the data. -/
def float (layout : List CType) (k : ℕ) : ℚ := NetworkFloat.toHost (m.uint layout k)

/-- The version of the protocol. -/
def version : ℕ := m.uint8 (offsetOf requestHeader 0)

/-- `pkt_type`. -/
def pktType : ℕ := m.uint8 (offsetOf requestHeader 1)

/-- `res1`. -/
def res1 : ℕ := m.uint8 (offsetOf requestHeader 2)

/-- `res2`. -/
def res2 : ℕ := m.uint8 (offsetOf requestHeader 3)

/-- The code of the request. -/
def command : ℕ := m.ntohs (offsetOf requestHeader 4)

/-- The number which is repeated in the reply. -/
def sequence : BitVec 32 := m.ntohl (offsetOf requestHeader 6)

end Memory

/-! ### The length of a message -/

/-- `PROTO_VERSION_NUMBER`. -/
def protoVersionNumber : ℕ := 6

/-- `PROTO_VERSION_PADDING`. -/
def protoVersionPadding : ℕ := 6

/-- `PKL_CommandPaddingLength`. -/
def commandPaddingLength (version command : ℕ) : ℕ :=
  if version < protoVersionPadding then 0
  else ((Command.ofCode command).map fun c => (requestLengths c).2).getD 0

/-- `PKL_CommandLength`. -/
def commandLength (version command : ℕ) : ℕ :=
  match Command.ofCode command with
  | none => 0
  | some c =>
      if (requestLengths c).1 = 0 then 0
      else (requestLengths c).1 + commandPaddingLength version command

end Chrony.Candm
