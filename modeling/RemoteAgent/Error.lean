import RemoteAgent.Text.Hex
import RemoteAgent.Text.Quoted
import RemoteAgent.Text.Utf8
import RemoteAgent.Message.Kind
import RemoteAgent.Channel.State
import RemoteAgent.Memory.Region

/-! What can go wrong, as causes; the wording of each cause; which of them end a session. -/

namespace RemoteAgent

inductive IoError.Kind where
  | notFound
  | permissionDenied
  | connectionRefused
  | connectionReset
  | connectionAborted
  | notConnected
  | addrInUse
  | addrNotAvailable
  | brokenPipe
  | alreadyExists
  | wouldBlock
  | isADirectory
  | invalidInput
  | invalidData
  | timedOut
  | writeZero
  | interrupted
  | unsupported
  | unexpectedEof
  | outOfMemory
  | other
  deriving DecidableEq, Repr

namespace IoError.Kind

def name : IoError.Kind → String
  | notFound => "NotFound"
  | permissionDenied => "PermissionDenied"
  | connectionRefused => "ConnectionRefused"
  | connectionReset => "ConnectionReset"
  | connectionAborted => "ConnectionAborted"
  | notConnected => "NotConnected"
  | addrInUse => "AddrInUse"
  | addrNotAvailable => "AddrNotAvailable"
  | brokenPipe => "BrokenPipe"
  | alreadyExists => "AlreadyExists"
  | wouldBlock => "WouldBlock"
  | isADirectory => "IsADirectory"
  | invalidInput => "InvalidInput"
  | invalidData => "InvalidData"
  | timedOut => "TimedOut"
  | writeZero => "WriteZero"
  | interrupted => "Interrupted"
  | unsupported => "Unsupported"
  | unexpectedEof => "UnexpectedEof"
  | outOfMemory => "OutOfMemory"
  | other => "Other"

def all : List IoError.Kind :=
  [notFound, permissionDenied, connectionRefused, connectionReset, connectionAborted,
    notConnected, addrInUse, addrNotAvailable, brokenPipe, alreadyExists, wouldBlock,
    isADirectory, invalidInput, invalidData, timedOut, writeZero, interrupted, unsupported,
    unexpectedEof, outOfMemory, other]

def ofName? (name : String) : Option IoError.Kind := all.find? (·.name = name)

end IoError.Kind

structure IoError where
  kind : IoError.Kind
  text : String
  deriving DecidableEq, Repr

inductive OsError where
  | noEntry
  | outOfMemory
  | noDevice
  | accessDenied
  | isDirectory
  | tooManyFiles
  | brokenPipe
  | addressInUse
  | connectionReset
  | connectionRefused
  | wouldBlock
  deriving DecidableEq, Repr

namespace OsError

def number : OsError → Nat
  | noEntry => 2
  | noDevice => 6
  | outOfMemory => 12
  | accessDenied => 13
  | isDirectory => 21
  | tooManyFiles => 24
  | brokenPipe => 32
  | addressInUse => 98
  | connectionReset => 104
  | connectionRefused => 111
  | wouldBlock => 11

def description : OsError → String
  | noEntry => "No such file or directory"
  | noDevice => "No such device or address"
  | outOfMemory => "Cannot allocate memory"
  | accessDenied => "Permission denied"
  | isDirectory => "Is a directory"
  | tooManyFiles => "Too many open files"
  | brokenPipe => "Broken pipe"
  | addressInUse => "Address already in use"
  | connectionReset => "Connection reset by peer"
  | connectionRefused => "Connection refused"
  | wouldBlock => "Resource temporarily unavailable"

def kind : OsError → IoError.Kind
  | noEntry => .notFound
  | outOfMemory => .outOfMemory
  | noDevice => .other
  | accessDenied => .permissionDenied
  | isDirectory => .isADirectory
  | tooManyFiles => .other
  | brokenPipe => .brokenPipe
  | addressInUse => .addrInUse
  | connectionReset => .connectionReset
  | connectionRefused => .connectionRefused
  | wouldBlock => .wouldBlock

def message (e : OsError) : String :=
  e.description ++ " (os error " ++ toString e.number ++ ")"

def toIoError (e : OsError) : IoError := ⟨e.kind, e.message⟩

end OsError

namespace IoError

def unexpectedEnd : IoError := ⟨.unexpectedEof, "failed to fill whole buffer"⟩

def truncated (wanted got : Nat) : IoError :=
  ⟨.unexpectedEof, s!"expected {wanted} bytes, stream ended after {got}"⟩

def writeZero : IoError := ⟨.writeZero, "failed to write whole buffer"⟩

end IoError

inductive ProtocolFault where
  | lengthTooLarge (length : Nat)
  | invalidText (fault : Text.Utf8Fault)
  | trailing (count : Nat) (kind : Message.Kind)
  | badValueLength (got : Nat)
  | badProtectionLength (got : Nat)
  | other (text : String)
  deriving DecidableEq, Repr

def ProtocolFault.message : ProtocolFault → String
  | lengthTooLarge n => s!"Length {n} does not fit in 32 bits"
  | invalidText f => "Invalid UTF-8 string: " ++ f.message
  | trailing n k => s!"{n} trailing bytes after " ++ k.name
  | badValueLength n => s!"Expected 8-byte value, got {n} bytes"
  | badProtectionLength n => s!"Expected 4-byte protection, got {n} bytes"
  | other text => text

inductive MemoryFault where
  | rangeOverflows (length : Nat)
  | unqueryable
  | inaccessible (base : Nat) (state : Memory.Region.State) (protect : UInt32)
  | noProgress
  | emptyAllocation
  | unsupportedAllocation (allocationType : UInt32)
  | unsupportedProtection (protect : UInt32)
  | notAllocated
  | pagesOverflow
  | protectRefused (cause : OsError)
  | unmapRefused (cause : OsError)
  | other (text : String)
  deriving DecidableEq, Repr

def MemoryFault.message : MemoryFault → String
  | rangeOverflows n => s!"Range of {n} bytes overflows the address space"
  | unqueryable => "Address cannot be queried"
  | inaccessible base state protect =>
    "Region at " ++ Text.hex base ++ " is " ++ state.name ++ " with protection " ++
      Text.hex protect.toNat
  | noProgress => "Memory map walk made no progress"
  | emptyAllocation => "Allocation size must be non-zero"
  | unsupportedAllocation t => "Unsupported allocation type " ++ Text.hex t.toNat
  | unsupportedProtection p => "Unsupported protection " ++ Text.hex p.toNat
  | notAllocated => "Not the base of an agent allocation"
  | pagesOverflow => "Range overflows the address space"
  | protectRefused e => "mprotect failed: " ++ e.message
  | unmapRefused e => "munmap failed: " ++ e.message
  | other text => text

inductive ResourceFault where
  | tooManyArguments (arity limit : Nat)
  | tooManyBytes (size : Nat)
  | mapRefused (length : Nat) (cause : OsError)
  | noClosure
  | other (text : String)
  deriving DecidableEq, Repr

def ResourceFault.message : ResourceFault → String
  | tooManyArguments n limit => s!"{n} arguments exceeds the limit of {limit}"
  | tooManyBytes n => s!"{n} bytes"
  | mapRefused n e => s!"mmap of {n} bytes failed: " ++ e.message
  | noClosure => "Failed to allocate closure trampoline"
  | other text => text

inductive CallFault where
  | wrongArgumentCount (arity supplied : Nat)
  | reported (text : String)
  deriving DecidableEq, Repr

def CallFault.message : CallFault → String
  | wrongArgumentCount n k => s!"Descriptor takes {n} arguments, {k} supplied"
  | reported text => text

inductive ConfigFault where
  | samePrefix (shared : String)
  | messageSizeTooSmall (size : Nat)
  | unreadable (path : String) (cause : IoError)
  | malformed
  | other (text : String)
  deriving DecidableEq, Repr

def ConfigFault.message : ConfigFault → String
  | samePrefix p => "command and data prefixes must differ (both " ++ Text.quoted p ++ ")"
  | messageSizeTooSmall n => s!"max_message_size {n} is too small"
  | unreadable path e => "Failed to read config file " ++ path ++ ": " ++ e.text
  | malformed => "TOML parse error"
  | other text => text

inductive Error where
  | channelIo (cause : IoError)
  | protocol (cause : ProtocolFault)
  | unknownMessageType (tag : UInt32)
  | unexpectedMessage (expected actual : Message.Kind)
  | frameTooLarge (size max : Nat)
  | invalidState (operation : String) (state : Channel.State)
  | memoryAccess (address : Nat) (cause : MemoryFault)
  | invalidAddress (address : Nat)
  | nativeCall (cause : CallFault)
  | fault (signal : Int) (address : Nat)
  | resourceExhausted (cause : ResourceFault)
  | notConnected
  | config (cause : ConfigFault)
  | internal (text : String)
  deriving DecidableEq, Repr

namespace Error

def message : Error → String
  | channelIo e => "Channel I/O error: " ++ e.text
  | protocol f => "Protocol error: " ++ f.message
  | unknownMessageType tag => "Unknown message type: " ++ toString tag.toNat
  | unexpectedMessage expected actual =>
    "Unexpected message: expected " ++ expected.name ++ ", got " ++ actual.name
  | frameTooLarge size max => s!"Frame of {size} bytes exceeds maximum of {max} bytes"
  | invalidState operation state => "Cannot " ++ operation ++ " while channel is " ++ state.name
  | memoryAccess a f => "Memory access error at " ++ Text.hex a ++ ": " ++ f.message
  | invalidAddress a => "Invalid address: " ++ Text.hex a
  | nativeCall f => "Native call failed: " ++ f.message
  | fault signal a => "Access violation at " ++ Text.hex a ++ " (signal " ++ toString signal ++ ")"
  | resourceExhausted f => "Resource exhausted: " ++ f.message
  | notConnected => "Not connected"
  | config f => "Configuration error: " ++ f.message
  | internal text => "Internal error: " ++ text

def name : Error → String
  | channelIo _ => "ChannelIo"
  | protocol _ => "Protocol"
  | unknownMessageType _ => "UnknownMessageType"
  | unexpectedMessage _ _ => "UnexpectedMessage"
  | frameTooLarge _ _ => "FrameTooLarge"
  | invalidState _ _ => "InvalidState"
  | memoryAccess _ _ => "MemoryAccess"
  | invalidAddress _ => "InvalidAddress"
  | nativeCall _ => "NativeCall"
  | fault _ _ => "Fault"
  | resourceExhausted _ => "ResourceExhausted"
  | notConnected => "NotConnected"
  | config _ => "Config"
  | internal _ => "Internal"

def ofText? (name text : String) : Option Error :=
  match name with
  | "Protocol" => some (protocol (.other text))
  | "NativeCall" => some (nativeCall (.reported text))
  | "ResourceExhausted" => some (resourceExhausted (.other text))
  | "Config" => some (config (.other text))
  | "Internal" => some (internal text)
  | _ => none

def isSessionFatal : Error → Bool
  | channelIo _ | protocol _ | unknownMessageType _ | unexpectedMessage _ _ | frameTooLarge _ _
  | notConnected => true
  | _ => false

theorem bind_eq_ok_iff {α β : Type} {x : Except Error α} {f : α → Except Error β} {b : β} :
    x >>= f = .ok b ↔ ∃ a, x = .ok a ∧ f a = .ok b := by
  constructor
  · intro h
    cases x with
    | error e => cases h
    | ok a => exact ⟨a, rfl, h⟩
  · rintro ⟨a, rfl, h⟩
    exact h

end Error

end RemoteAgent
