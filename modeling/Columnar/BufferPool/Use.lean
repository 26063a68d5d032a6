import Columnar.Document.Cache

/-! A buffer pool in use. The pool is shared by its handles; a lease is held until it is dropped, and
documents are written in between, in any order and through any of the handles. -/
namespace Columnar

/-- The buffer with its contents changed in whatever way. -/
def Buffer.edit (buffer : Buffer) (change : Octets → Octets) : Buffer :=
  { buffer with contents := change buffer.contents }

/-- A call through a handle of a pool, or on a buffer that has been leased. Handles and leases are
numbered in the order in which they were made. -/
inductive PoolCall where
  | clone (handle : Nat)
  | lease (handle : Nat)
  | edit (lease : Nat) (change : Octets → Octets)
  | drop (lease : Nat)
  | encode (handle : Nat) (frame : Frame) (parts : FrameParts)
  | encodeAll (handle : Nat) (frames : List Frame) (parts : FrameParts)
  | cache (handle : Nat) (frame : Frame)

/-- A pool, the number of its handles, and the buffers of its leases; a lease that has been dropped
has none. -/
structure PoolUse where
  pool : BufferPool
  handles : Nat := 1
  leases : List (Option Buffer) := []

namespace PoolUse

/-- A new pool with one handle. -/
def start (maxIdle : Nat) : PoolUse := { pool := { maxIdle } }

/-- The use after a call that leaves the leases alone, if it goes through a handle there is. -/
def through (use : PoolUse) (handle : Nat) (pool : BufferPool) : PoolUse :=
  if handle < use.handles then { use with pool } else use

def call (use : PoolUse) : PoolCall → PoolUse
  | .clone handle => if handle < use.handles then { use with handles := use.handles + 1 } else use
  | .lease handle =>
    if handle < use.handles then
      let (buffer, pool) := use.pool.lease
      { use with pool, leases := use.leases ++ [some buffer] }
    else use
  | .edit lease change =>
    { use with leases := use.leases.modify lease (Option.map (·.edit change)) }
  | .drop lease =>
    match use.leases[lease]? with
    | some (some buffer) =>
      { use with pool := use.pool.release buffer, leases := use.leases.set lease none }
    | _ => use
  | .encode handle frame parts => use.through handle (use.pool.encode frame parts).2
  | .encodeAll handle frames parts => use.through handle (use.pool.encodeAll frames parts).2
  | .cache handle frame => use.through handle (DocumentCache.ofFrame use.pool frame).2

def run (use : PoolUse) (calls : List PoolCall) : PoolUse := calls.foldl call use

/-- The serial numbers of the buffers that are leased. -/
def held (use : PoolUse) : List Nat := use.leases.filterMap (Option.map Buffer.serial)

end PoolUse

/-- A pool as it is after calls through its handles and on its leases. -/
def BufferPool.after (maxIdle : Nat) (calls : List PoolCall) : BufferPool :=
  ((PoolUse.start maxIdle).run calls).pool

/-- What the leases hold when every one of them has a new buffer of its own and there is no pool. -/
structure SeparateUse where
  handles : Nat := 1
  leases : List (Option Octets) := []

namespace SeparateUse

def call (use : SeparateUse) : PoolCall → SeparateUse
  | .clone handle => if handle < use.handles then { use with handles := use.handles + 1 } else use
  | .lease handle =>
    if handle < use.handles then { use with leases := use.leases ++ [some []] } else use
  | .edit lease change => { use with leases := use.leases.modify lease (Option.map change) }
  | .drop lease => { use with leases := use.leases.set lease none }
  | _ => use

def run (use : SeparateUse) (calls : List PoolCall) : SeparateUse := calls.foldl call use

end SeparateUse

end Columnar
