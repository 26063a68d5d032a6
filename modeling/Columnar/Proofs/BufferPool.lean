import Columnar.BufferPool.Use
import Columnar.Proofs.Document.Buffered

/-! Pools in use. Buffers that are not in use are empty and no more than the limit, and every buffer
has one place: it is idle or held by one lease. What is in a lease is what its holder has put there,
and documents come out the same whichever buffer they are written in. -/
namespace Columnar

open BufferWriter

/-- A pool beside the buffers that are leased from it, given by their serial numbers. -/
structure BufferPool.Orderly (pool : BufferPool) (held : List Nat) : Prop where
  bounded : pool.idle.length ≤ pool.maxIdle
  clean : ∀ buffer ∈ pool.idle, buffer.contents = []
  apart : (pool.idle.map Buffer.serial ++ held).Nodup
  counted : ∀ serial ∈ pool.idle.map Buffer.serial ++ held, serial < pool.nextSerial

namespace BufferPool

variable {pool : BufferPool} {held : List Nat} {α : Type}

theorem maxIdle_lease (pool : BufferPool) : pool.lease.2.maxIdle = pool.maxIdle := by
  rw [lease]
  split <;> rfl

theorem maxIdle_release (pool : BufferPool) (buffer : Buffer) :
    (pool.release buffer).maxIdle = pool.maxIdle := by
  rw [release]
  split <;> rfl

theorem pool_withLease (pool : BufferPool) (task : BufferWriter α) :
    (pool.withLease task).2 = pool.lease.2.release
      { pool.lease.1 with contents := (task.runOn pool.lease.1.contents).2 } := rfl

theorem maxIdle_withLease (pool : BufferPool) (task : BufferWriter α) :
    (pool.withLease task).2.maxIdle = pool.maxIdle := by
  rw [pool_withLease, maxIdle_release, maxIdle_lease]

theorem available_lease (pool : BufferPool) : pool.lease.2.available = pool.available - 1 := by
  rw [lease, available, available]
  split
  next stack => rw [stack]; rfl
  next stack => simp [stack]

theorem available_release (pool : BufferPool) (buffer : Buffer) :
    (pool.release buffer).available =
      if pool.available < pool.maxIdle then pool.available + 1 else pool.available := by
  rw [release, available, available]
  split <;> rfl

theorem Orderly.perm {other : List Nat} (orderly : pool.Orderly held) (same : held.Perm other) :
    pool.Orderly other where
  bounded := orderly.bounded
  clean := orderly.clean
  apart := (same.append_left _).nodup_iff.1 orderly.apart
  counted serial member := orderly.counted serial ((same.append_left _).mem_iff.2 member)

/-- A new lease is empty. -/
theorem Orderly.contents_lease (orderly : pool.Orderly held) : pool.lease.1.contents = [] := by
  rw [lease]
  split
  next buffer rest stack => exact orderly.clean buffer (stack ▸ List.mem_cons_self ..)
  · rfl

/-- The buffer of a new lease has no other place any more. -/
theorem Orderly.lease (orderly : pool.Orderly held) :
    pool.lease.2.Orderly (pool.lease.1.serial :: held) := by
  obtain ⟨bounded, clean, apart, counted⟩ := orderly
  rw [BufferPool.lease]
  split
  next buffer rest stack =>
    rw [stack] at bounded clean apart counted
    have moved : (buffer.serial :: (rest.map Buffer.serial ++ held)).Perm
        (rest.map Buffer.serial ++ buffer.serial :: held) := List.perm_middle.symm
    exact ⟨Nat.le_of_succ_le bounded, fun other member => clean other (List.mem_cons_of_mem _ member),
      moved.nodup_iff.1 apart, fun serial member => counted serial (moved.mem_iff.2 member)⟩
  next stack =>
    rw [stack] at apart counted
    refine ⟨by simp [stack], by simp [stack], ?_, ?_⟩
    · rw [stack]
      exact List.nodup_cons.2 ⟨fun member => Nat.lt_irrefl _ (counted _ member), apart⟩
    · rw [stack]
      rintro serial (_ | ⟨_, member⟩)
      · exact Nat.lt_succ_self _
      · exact Nat.lt_succ_of_lt (counted serial member)

/-- A buffer that comes back is idle, or has no place any more when there are enough. -/
theorem Orderly.release {buffer : Buffer} (orderly : pool.Orderly (buffer.serial :: held)) :
    (pool.release buffer).Orderly held := by
  obtain ⟨bounded, clean, apart, counted⟩ := orderly
  have moved : (pool.idle.map Buffer.serial ++ buffer.serial :: held).Perm
      (buffer.serial :: (pool.idle.map Buffer.serial ++ held)) := List.perm_middle
  rw [BufferPool.release]
  split
  next room =>
    exact ⟨room, List.forall_mem_cons.2 ⟨rfl, clean⟩, moved.nodup_iff.1 apart,
      fun serial member => counted serial (moved.mem_iff.2 member)⟩
  · exact ⟨bounded, clean, (List.nodup_cons.1 (moved.nodup_iff.1 apart)).2,
      fun serial member => counted serial (moved.mem_iff.2 (List.mem_cons_of_mem _ member))⟩

/-- A task that writes in a buffer of the pool leaves everything in its place. -/
theorem Orderly.withLease (orderly : pool.Orderly held) (task : BufferWriter α) :
    (pool.withLease task).2.Orderly held :=
  orderly.lease.release

/-- Whether a task succeeds or fails, its buffer is idle afterwards if one may be. -/
theorem Orderly.available_withLease (orderly : pool.Orderly held) (task : BufferWriter α) :
    (pool.withLease task).2.available = max pool.available (min 1 pool.maxIdle) := by
  have bounded : pool.available ≤ pool.maxIdle := orderly.bounded
  rw [pool_withLease, available_release, available_lease, maxIdle_lease]
  split <;> omega

/-- What a task gives does not depend on the buffer it is given. -/
theorem Orderly.result_withLease (orderly : pool.Orderly held) (task : BufferWriter α) :
    (pool.withLease task).1 = (task.runOn []).1 := by
  rw [← orderly.contents_lease]
  rfl

theorem result_contents {writer : BufferWriter Unit} {outcome : Except Error Octets}
    (follows : writer.Follows (outcome.map fun text => (text, ()))) :
    (runOn (do writer; contents) []).1 = outcome := by
  rw [runOn_bind]
  cases outcome with
  | ok text =>
    rw [follows []]
    rfl
  | error error =>
    obtain ⟨part, failed⟩ := follows []
    rw [failed]

/-- Documents are the same whichever pool they are written with. -/
theorem Orderly.result_encode (orderly : pool.Orderly held) (frame : Frame) (parts : FrameParts) :
    (pool.encode frame parts).1 = frame.document parts :=
  (orderly.result_withLease _).trans (result_contents (frame.follows_writeDocument parts))

theorem Orderly.result_encodeAll (orderly : pool.Orderly held) (frames : List Frame)
    (parts : FrameParts) : (pool.encodeAll frames parts).1 = Frame.documents frames parts :=
  (orderly.result_withLease _).trans (result_contents (Frame.follows_writeDocuments frames parts))

/-- The data section is written into the buffer after the schema has been taken out of it. -/
theorem Orderly.result_ofFrame (orderly : pool.Orderly held) (frame : Frame) :
    (DocumentCache.ofFrame pool frame).1 =
      frame.dataSection.map fun data => .ofSections frame.schema.octets data := by
  refine (orderly.result_withLease _).trans ?_
  rw [runOn_bind, frame.writes_writeSchema []]
  change (runOn (do
    frame.writeData
    let data ← contents
    return DocumentCache.ofSections frame.schema.octets data) []).1 = _
  have data := frame.follows_writeData
  rw [runOn_bind]
  cases found : frame.dataSection with
  | ok text =>
    rw [found] at data
    rw [data []]
    rfl
  | error error =>
    rw [found] at data
    obtain ⟨part, failed⟩ := data []
    rw [failed]
    rfl

end BufferPool

namespace PoolUse

/-- A buffer that is dropped is one of those that were held. -/
theorem perm_held_set {leases : List (Option Buffer)} {lease : Nat} {buffer : Buffer}
    (here : leases[lease]? = some (some buffer)) :
    (leases.filterMap (Option.map Buffer.serial)).Perm
      (buffer.serial :: (leases.set lease none).filterMap (Option.map Buffer.serial)) := by
  induction leases generalizing lease with
  | nil => cases here
  | cons first rest ih =>
    cases lease with
    | zero =>
      cases here
      exact .refl _
    | succ lease =>
      cases first with
      | none => exact ih here
      | some other => exact ((ih here).cons other.serial).trans (.swap ..)

/-- A buffer that is written in stays the same buffer. -/
theorem held_modify (leases : List (Option Buffer)) (lease : Nat) (change : Octets → Octets) :
    (leases.modify lease (Option.map (·.edit change))).filterMap (Option.map Buffer.serial) =
      leases.filterMap (Option.map Buffer.serial) := by
  induction leases generalizing lease with
  | nil => cases lease <;> rfl
  | cons first rest ih =>
    cases lease with
    | zero => cases first <;> rfl
    | succ lease => cases first <;> simp [List.modify_succ_cons, ih]

theorem contents_modify (leases : List (Option Buffer)) (lease : Nat) (change : Octets → Octets) :
    (leases.modify lease (Option.map (·.edit change))).map (Option.map Buffer.contents) =
      (leases.map (Option.map Buffer.contents)).modify lease (Option.map change) := by
  induction leases generalizing lease with
  | nil => cases lease <;> rfl
  | cons first rest ih =>
    cases lease with
    | zero => cases first <;> rfl
    | succ lease => simp [List.modify_succ_cons, ih]

/-- Dropping a lease twice, or one that there never was, changes nothing. -/
theorem set_eq_of_absent {leases : List (Option Buffer)} {lease : Nat}
    (absent : ∀ buffer, leases[lease]? ≠ some (some buffer)) : leases.set lease none = leases := by
  induction leases generalizing lease with
  | nil => rfl
  | cons first rest ih =>
    cases lease with
    | zero =>
      cases first with
      | none => rfl
      | some buffer => exact absurd rfl (absent buffer)
    | succ lease => rw [List.set_cons_succ, ih absent]

/-- What every call keeps: the pool is in order, and every lease holds what it would hold if it had
never seen a pool. -/
structure Sound (use : PoolUse) (maxIdle : Nat) (separate : SeparateUse) : Prop where
  limit : use.pool.maxIdle = maxIdle
  orderly : use.pool.Orderly use.held
  handles : use.handles = separate.handles
  contents : use.leases.map (Option.map Buffer.contents) = separate.leases

variable {use : PoolUse} {maxIdle : Nat} {separate : SeparateUse}

theorem sound_start (maxIdle : Nat) : (start maxIdle).Sound maxIdle {} where
  limit := rfl
  orderly := ⟨Nat.zero_le _, List.forall_mem_nil _, List.nodup_nil, List.forall_mem_nil _⟩
  handles := rfl
  contents := rfl

/-- Writing a document leaves the leases alone. -/
theorem Sound.through {α : Type} (sound : use.Sound maxIdle separate) (handle : Nat)
    (task : BufferWriter α) :
    (use.through handle (use.pool.withLease task).2).Sound maxIdle separate := by
  rw [PoolUse.through]
  split
  · exact ⟨(BufferPool.maxIdle_withLease _ _).trans sound.limit, sound.orderly.withLease task,
      sound.handles, sound.contents⟩
  · exact sound

theorem Sound.call (sound : use.Sound maxIdle separate) (call : PoolCall) :
    (use.call call).Sound maxIdle (separate.call call) := by
  obtain ⟨limit, orderly, handles, contents⟩ := sound
  cases call with
  | clone handle =>
    rw [PoolUse.call, SeparateUse.call, handles]
    split
    · exact ⟨limit, orderly, rfl, contents⟩
    · exact ⟨limit, orderly, handles, contents⟩
  | lease handle =>
    rw [PoolUse.call, SeparateUse.call, handles]
    split
    · refine ⟨(BufferPool.maxIdle_lease _).trans limit, ?_, rfl, ?_⟩
      · refine orderly.lease.perm ?_
        change List.Perm _ (List.filterMap _ (use.leases ++ [some use.pool.lease.1]))
        rw [List.filterMap_append]
        exact (List.perm_append_singleton ..).symm
      · change (use.leases ++ [some use.pool.lease.1]).map _ = _
        rw [List.map_append, contents, List.map_singleton, Option.map_some, orderly.contents_lease]
    · exact ⟨limit, orderly, handles, contents⟩
  | edit lease change =>
    refine ⟨limit, ?_, handles, ?_⟩
    · exact orderly.perm (.of_eq (held_modify ..).symm)
    · exact (contents_modify ..).trans (congrArg (List.modify · lease _) contents)
  | drop lease =>
    rw [PoolUse.call, SeparateUse.call, ← contents]
    split
    next buffer here =>
      refine ⟨(BufferPool.maxIdle_release _ _).trans limit, ?_, handles, List.map_set⟩
      exact (orderly.perm (perm_held_set here)).release
    next absent =>
      refine ⟨limit, orderly, handles, ?_⟩
      change _ = List.set _ lease (Option.map Buffer.contents none)
      rw [← List.map_set, set_eq_of_absent absent]
  | encode handle frame parts => exact Sound.through ⟨limit, orderly, handles, contents⟩ handle _
  | encodeAll handle frames parts => exact Sound.through ⟨limit, orderly, handles, contents⟩ handle _
  | cache handle frame => exact Sound.through ⟨limit, orderly, handles, contents⟩ handle _

theorem Sound.run (sound : use.Sound maxIdle separate) (calls : List PoolCall) :
    (use.run calls).Sound maxIdle (separate.run calls) := by
  induction calls generalizing use separate with
  | nil => exact sound
  | cons call rest ih => exact ih (sound.call call)

theorem sound_run (maxIdle : Nat) (calls : List PoolCall) :
    ((start maxIdle).run calls).Sound maxIdle (({} : SeparateUse).run calls) :=
  (sound_start maxIdle).run calls

/-- What can be relied on while a pool is in use, where `separate` is the same use without a pool. -/
structure Reliable (use : PoolUse) (maxIdle : Nat) (separate : SeparateUse) : Prop where
  bounded : use.pool.available ≤ maxIdle
  clean : ∀ buffer ∈ use.pool.idle, buffer.contents = []
  /-- The next lease starts empty, in a buffer that no other lease has and that is not idle. -/
  leasedEmpty : use.pool.lease.1.contents = []
  leasedAlone : use.pool.lease.1.serial ∉ use.held ++ use.pool.lease.2.idle.map Buffer.serial
  /-- No two leases have the same buffer. -/
  apart : use.held.Nodup
  /-- A lease holds what its holder has put there. -/
  isolated : use.leases.map (Option.map Buffer.contents) = separate.leases
  /-- What is written depends on nothing but what it is written for. -/
  encoded : ∀ frame parts, (use.pool.encode frame parts).1 = frame.document parts
  encodedAll : ∀ frames parts, (use.pool.encodeAll frames parts).1 = Frame.documents frames parts
  cached : ∀ frame, (DocumentCache.ofFrame use.pool frame).1 =
    frame.dataSection.map fun data => .ofSections frame.schema.octets data
  /-- One buffer more is idle after the first document, whether it could be written or not. -/
  idleAfter : ∀ frame parts, (use.pool.encode frame parts).2.available =
    max use.pool.available (min 1 maxIdle)
  idleAfterAll : ∀ frames parts, (use.pool.encodeAll frames parts).2.available =
    max use.pool.available (min 1 maxIdle)
  idleAfterCache : ∀ frame, (DocumentCache.ofFrame use.pool frame).2.available =
    max use.pool.available (min 1 maxIdle)

theorem Sound.reliable (sound : use.Sound maxIdle separate) : use.Reliable maxIdle separate := by
  obtain ⟨rfl, orderly, -, contents⟩ := sound
  have leased := orderly.lease.apart
  have alone := (List.nodup_cons.1 (List.perm_append_comm.nodup_iff.1 leased)).1
  exact ⟨orderly.bounded, orderly.clean, orderly.contents_lease, alone,
    (List.nodup_append'.1 orderly.apart).2.1, contents, orderly.result_encode,
    orderly.result_encodeAll, orderly.result_ofFrame,
    fun _ _ => orderly.available_withLease _, fun _ _ => orderly.available_withLease _,
    fun _ => orderly.available_withLease _⟩

/-- A pool can be relied on after any calls through any of its handles, in any order and with any
number of leases not yet dropped. -/
theorem run_reliable (maxIdle : Nat) (calls : List PoolCall) :
    ((start maxIdle).run calls).Reliable maxIdle (({} : SeparateUse).run calls) :=
  (sound_run maxIdle calls).reliable

end PoolUse

end Columnar
