import IdlScope.Pool.Buffers

/-!
# Leases — a pool together with the buffers that are out

Several buffers may be out at once. A lease is the number under which one was checked out;
numbers count up and are never given out twice. Writing appends to the buffer of one lease,
and ending a lease gives its buffer back to the pool.
-/

namespace IdlScope

/-- A pool and, by lease number, the buffers that are out; `none` where the lease has ended. -/
structure Leases where
  pool : BufferPool
  slots : List (Option String)

namespace Leases

/-- No lease yet. -/
def new (maxIdle : Nat) : Leases := ⟨.new maxIdle, []⟩

/-- The content of a lease, if the lease exists and has not ended. -/
def read? (l : Leases) (n : Nat) : Option String :=
  (l.slots[n]?).join

/-- Checks a buffer out: the number of the new lease. -/
def checkout (l : Leases) : Nat × Leases :=
  (l.slots.length, ⟨l.pool.checkout.2, l.slots ++ [some l.pool.checkout.1]⟩)

/-- Appends to the buffer of a lease: the whole content after it, if the lease is live. -/
def write (l : Leases) (n : Nat) (text : String) : Option String × Leases :=
  match l.read? n with
  | some content =>
    (some (content ++ text), { l with slots := l.slots.set n (some (content ++ text)) })
  | none => (none, l)

/-- Ends a lease: `true` if it was live, `false` if it had ended, nothing if it never was. -/
def release (l : Leases) (n : Nat) : Option Bool × Leases :=
  match l.slots[n]? with
  | none => (none, l)
  | some none => (some false, l)
  | some (some content) => (some true, ⟨l.pool.giveBack content, l.slots.set n none⟩)

end Leases

/-- A one-line description of a buffer that is out. -/
def bufferSummary (content : String) : String :=
  "PooledBuffer \x7b len: " ++ toString content.utf8ByteSize ++ " \x7d"

end IdlScope
