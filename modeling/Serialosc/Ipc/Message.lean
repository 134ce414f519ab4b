import Serialosc.Support.ByteMemory

/-!
# IPC messages

The `sosc_ipc_msg_t` structure as it lies in memory on an LP64 machine, and
the message it stands for.  The structure is sent as it is, so its pointer
values and its padding travel with it; the strings it points at follow as
length, bytes and magic.

`IpcMsg` is what both ends agree on: the type and the members that the type
selects, with every string by value.
-/

namespace Serialosc

open ByteMemory

/-- `IPC_MAGIC`, "SOSC". -/
def ipcMagic : BitVec 16 := 0x505C

/-- `SOSC_IPC_MSG_BUFFER_SIZE`. -/
def soscIpcMsgBufferSize : ℕ := 256

/-- `sosc_ipc_type_t`. -/
inductive SoscIpcType
  | deviceConnection
  | deviceInfo
  | deviceReady
  | deviceDisconnection
  | oscPortChange
  | processShouldExit
  deriving DecidableEq, Repr

/-- The enumerator with a given value, if there is one. -/
def SoscIpcType.ofRaw (raw : BitVec 32) : Option SoscIpcType :=
  match raw.toNat with
  | 0 => some .deviceConnection
  | 1 => some .deviceInfo
  | 2 => some .deviceReady
  | 3 => some .deviceDisconnection
  | 4 => some .oscPortChange
  | 5 => some .processShouldExit
  | _ => none

/-- The value of an enumerator. -/
def SoscIpcType.code : SoscIpcType → ℕ
  | .deviceConnection => 0
  | .deviceInfo => 1
  | .deviceReady => 2
  | .deviceDisconnection => 3
  | .oscPortChange => 4
  | .processShouldExit => 5

theorem SoscIpcType.code_of_ofRaw {raw : BitVec 32} {type : SoscIpcType}
    (htype : SoscIpcType.ofRaw raw = some type) : raw.toNat = type.code := by
  unfold SoscIpcType.ofRaw at htype
  split at htype
  all_goals cases htype
  all_goals assumption

theorem SoscIpcType.code_le (type : SoscIpcType) : type.code ≤ 5 := by
  cases type <;> decide

/-- A message: its type and the members of the union arm the type selects. -/
inductive IpcMsg
  | deviceConnection (devnode : CString)
  | deviceInfo (serial friendly : CString)
  | deviceReady
  | deviceDisconnection
  | oscPortChange (port : BitVec 16)
  | processShouldExit
  deriving DecidableEq

/-- The type of a message. -/
def IpcMsg.type : IpcMsg → SoscIpcType
  | .deviceConnection _ => .deviceConnection
  | .deviceInfo _ _ => .deviceInfo
  | .deviceReady => .deviceReady
  | .deviceDisconnection => .deviceDisconnection
  | .oscPortChange _ => .oscPortChange
  | .processShouldExit => .processShouldExit

/-- The port of a message that has one. -/
def IpcMsg.port : IpcMsg → BitVec 16
  | .oscPortChange port => port
  | _ => 0#16

/-- The strings of a message, in the order they are serialised. -/
def IpcMsg.strings : IpcMsg → List CString
  | .deviceConnection devnode => [devnode]
  | .deviceInfo serial friendly => [serial, friendly]
  | _ => []

/-! ## The structure in memory -/

/-- `sosc_ipc_msg_t`, byte for byte.  `word0` and `word1` are the two eight
byte halves of the union. -/
structure SoscIpcMsg where
  type : BitVec 32
  pad0 : BitVec 32
  word0 : BitVec 64
  word1 : BitVec 64
  magic : BitVec 16
  pad1 : BitVec 48
  deriving DecidableEq

namespace SoscIpcMsg

/-- `connection.devnode`. -/
def devnode (msg : SoscIpcMsg) : Addr := msg.word0

/-- `device_info.serial`. -/
def serial (msg : SoscIpcMsg) : Addr := msg.word0

/-- `device_info.friendly`. -/
def friendly (msg : SoscIpcMsg) : Addr := msg.word1

/-- `port_change.port`. -/
def port (msg : SoscIpcMsg) : BitVec 16 := msg.word0.setWidth 16

/-- The message a structure stands for, where `strAt` gives the string at
each address of the sender. -/
def contents (strAt : Addr → CString) (msg : SoscIpcMsg) : Option IpcMsg :=
  match SoscIpcType.ofRaw msg.type with
  | some .deviceConnection => some (.deviceConnection (strAt msg.devnode))
  | some .deviceInfo =>
      some (.deviceInfo (strAt msg.serial) (strAt msg.friendly))
  | some .deviceReady => some .deviceReady
  | some .deviceDisconnection => some .deviceDisconnection
  | some .oscPortChange => some (.oscPortChange msg.port)
  | some .processShouldExit => some .processShouldExit
  | none => none

/-- `msg->magic = IPC_MAGIC`. -/
def setMagic (msg : SoscIpcMsg) : SoscIpcMsg := { msg with magic := ipcMagic }

/-- The object representation of a structure. -/
def image (msg : SoscIpcMsg) : List UInt8 :=
  leBytes 4 msg.type.toNat ++ leBytes 4 msg.pad0.toNat ++
    leBytes 8 msg.word0.toNat ++ leBytes 8 msg.word1.toNat ++
    leBytes 2 msg.magic.toNat ++ leBytes 6 msg.pad1.toNat

end SoscIpcMsg

/-- `sizeof(sosc_ipc_msg_t)`. -/
def sizeofMsg : ℕ := 32

@[simp] theorem SoscIpcMsg.length_image (msg : SoscIpcMsg) :
    msg.image.length = sizeofMsg := by
  simp [image, sizeofMsg]

/-! ## The wire format -/

/-- One serialised byte string: length, bytes, magic. -/
def dataRecord (d : List UInt8) : List UInt8 :=
  leBytes 8 d.length ++ d ++ leBytes 2 ipcMagic.toNat

/-- Byte strings one after the other. -/
def dataRecords (ds : List (List UInt8)) : List UInt8 :=
  ds.flatMap dataRecord

/-- `8 + length + 2` bytes for each byte string. -/
def dataBytes (ds : List (List UInt8)) : ℕ :=
  (ds.map fun d => 8 + d.length + 2).sum

@[simp] theorem length_dataRecord (d : List UInt8) :
    (dataRecord d).length = 8 + d.length + 2 := by
  simp [dataRecord, Nat.add_assoc]

@[simp] theorem length_dataRecords (ds : List (List UInt8)) :
    (dataRecords ds).length = dataBytes ds := by
  simp [dataRecords, dataBytes, List.length_flatMap]

/-- One serialised string: length, bytes, magic. -/
def strRecord (s : CString) : List UInt8 := dataRecord s.bytes

/-- All strings of a message, one record after the other. -/
def strRecords (strs : List CString) : List UInt8 := dataRecords (strs.map CString.bytes)

/-- `8 + length + 2` bytes for each string. -/
def strBytes (strs : List CString) : ℕ := dataBytes (strs.map CString.bytes)

theorem strRecord_eq (s : CString) :
    strRecord s = leBytes 8 s.length ++ s.bytes ++ leBytes 2 ipcMagic.toNat := rfl

@[simp] theorem strRecords_nil : strRecords [] = [] := rfl

@[simp] theorem strRecords_cons (s : CString) (strs : List CString) :
    strRecords (s :: strs) = strRecord s ++ strRecords strs := rfl

theorem strBytes_eq_sum (strs : List CString) :
    strBytes strs = (strs.map fun s => 8 + s.length + 2).sum := by
  rw [strBytes, dataBytes, List.map_map]
  rfl

@[simp] theorem strBytes_nil : strBytes [] = 0 := rfl

@[simp] theorem strBytes_cons (s : CString) (strs : List CString) :
    strBytes (s :: strs) = 8 + s.length + 2 + strBytes strs := by
  rw [strBytes_eq_sum, strBytes_eq_sum, List.map_cons, List.sum_cons]

@[simp] theorem length_strRecord (s : CString) : (strRecord s).length = 8 + s.length + 2 :=
  length_dataRecord s.bytes

@[simp] theorem length_strRecords (strs : List CString) :
    (strRecords strs).length = strBytes strs :=
  length_dataRecords _

/-- Size of the serialised message. -/
def IpcMsg.wireSize (msg : IpcMsg) : ℕ :=
  sizeofMsg + strBytes msg.strings

/-- `msg` serialised through the structure `raw`, which supplies the pointer
values and the padding. -/
def wireBytes (raw : SoscIpcMsg) (msg : IpcMsg) : List UInt8 :=
  raw.setMagic.image ++ strRecords msg.strings

@[simp] theorem length_wireBytes (raw : SoscIpcMsg) (msg : IpcMsg) :
    (wireBytes raw msg).length = msg.wireSize := by
  simp [wireBytes, IpcMsg.wireSize]

theorem sizeofMsg_le_wireSize (msg : IpcMsg) : sizeofMsg ≤ msg.wireSize :=
  Nat.le_add_right _ _

end Serialosc
