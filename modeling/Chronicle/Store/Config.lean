import Chronicle.Event.Codec

/-!
# Configuration

How a store is opened. A path names its file; without one the store is private
and in memory. The other settings tune the storage engine and do not change
what operations answer.
-/

namespace Chronicle

/-- How far a write is carried before it counts as done. -/
inductive Synchronous where
  | full
  | normal
  | off
  deriving DecidableEq

namespace Synchronous

/-- The modes with their names in configurations. -/
def named : List (String × Synchronous) := [("Full", full), ("Normal", normal), ("Off", off)]

def name : Synchronous → String
  | full => "Full"
  | normal => "Normal"
  | off => "Off"

/-- The mode's name in the engine's settings. -/
def setting : Synchronous → String
  | full => "FULL"
  | normal => "NORMAL"
  | off => "OFF"

def decoder : Decoder Synchronous := Decoder.choice named

def toJson (s : Synchronous) : Json := .string s.name

end Synchronous

/-- How a store is opened. -/
structure Config where
  path : Option String
  /-- Keep a write-ahead log beside the file. -/
  writeAhead : Bool
  synchronous : Synchronous
  /-- Pages of cache or, when negative, kilobytes. -/
  cacheSize : Int32
  /-- How many milliseconds a writer waits for another. -/
  busyTimeout : UInt64
  deriving DecidableEq

namespace Config

/-- A private store in memory with the default settings. -/
def inMemory : Config := ⟨none, true, .normal, -64000, 5000⟩

/-- A store in a file with the default settings. -/
def atPath (path : String) : Config := { inMemory with path := some path }

def pathDecoder : Decoder String
  | .string s => .ok s
  | other => .error (.wrongType other "path string")

def decoder : Decoder Config :=
  (Record.pure Config.mk
    |>.field "path" (Decoder.optional pathDecoder) (some inMemory.path)
    |>.field "wal_mode" Decoder.bool (some inMemory.writeAhead)
    |>.field "synchronous" Synchronous.decoder (some inMemory.synchronous)
    |>.field "cache_size" Decoder.int32 (some inMemory.cacheSize)
    |>.field "busy_timeout_ms" Decoder.uint64
      (some inMemory.busyTimeout)).decoder "struct StoreConfig"

def toJson (c : Config) : Json :=
  .ofMembers
    [("path", c.path.elim .null .string), ("wal_mode", .bool c.writeAhead),
      ("synchronous", c.synchronous.toJson), ("cache_size", .ofInt c.cacheSize.toInt),
      ("busy_timeout_ms", .ofInt c.busyTimeout.toNat)]

end Config

end Chronicle
