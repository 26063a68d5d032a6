import Columnar.Document.Buffered
import Columnar.Settings.Environment

/-! A pool of buffers for writing documents. A buffer is leased for one task and comes back empty;
the pool keeps a limited number of buffers that are not in use and makes new ones when it has none. -/
namespace Columnar

/-- A buffer and what has been written into it. Its serial number tells it from the other buffers of
its pool. -/
structure Buffer where
  serial : Nat
  contents : Octets := []
deriving DecidableEq, Repr

namespace Buffer

def write (buffer : Buffer) (octets : Octets) : Buffer :=
  { buffer with contents := buffer.contents ++ octets }

def clear (buffer : Buffer) : Buffer := { buffer with contents := [] }

end Buffer

/-- The buffers of a pool that are not in use, the one that came back last first. -/
structure BufferPool where
  idle : List Buffer := []
  maxIdle : Nat
  /-- The serial number of the next new buffer. -/
  nextSerial : Nat := 0
deriving DecidableEq, Repr

namespace BufferPool

def ofSettings (settings : CodecSettings) : BufferPool := { maxIdle := settings.poolSize }

def available (pool : BufferPool) : Nat := pool.idle.length

/-- A buffer that nobody else uses. -/
def lease (pool : BufferPool) : Buffer × BufferPool :=
  match pool.idle with
  | buffer :: idle => (buffer, { pool with idle })
  | [] => (⟨pool.nextSerial, []⟩, { pool with nextSerial := pool.nextSerial + 1 })

/-- A buffer that is no longer used. What was written into it is lost, and so is the buffer when
there are enough. -/
def release (pool : BufferPool) (buffer : Buffer) : BufferPool :=
  if pool.idle.length < pool.maxIdle then { pool with idle := buffer.clear :: pool.idle } else pool

def text (pool : BufferPool) : String :=
  "BufferPool \x7b available: " ++ integerText pool.available ++ ", max_idle: "
    ++ integerText pool.maxIdle ++ " \x7d"

/-- A task that writes in a buffer of the pool. The buffer comes back in any case, with whatever the
task has left in it. -/
def withLease {α : Type} (pool : BufferPool) (task : BufferWriter α) :
    Except Error α × BufferPool :=
  let (buffer, pool) := pool.lease
  let (result, contents) := task.runOn buffer.contents
  (result, pool.release { buffer with contents })

/-- The document of a frame, copied out of the buffer in which it was written. -/
def encode (pool : BufferPool) (frame : Frame) (parts : FrameParts) :
    Except Error Octets × BufferPool :=
  pool.withLease do
    frame.writeDocument parts
    BufferWriter.contents

/-- The documents of several frames as one array. -/
def encodeAll (pool : BufferPool) (frames : List Frame) (parts : FrameParts) :
    Except Error Octets × BufferPool :=
  pool.withLease do
    Frame.writeDocuments frames parts
    BufferWriter.contents

end BufferPool

end Columnar
