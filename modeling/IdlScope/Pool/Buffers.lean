/-!
# Buffer pools — output buffers that are used again

A pool keeps empty buffers for the next file to write. Checking a buffer out takes an idle
one if there is one; giving it back empties it, and keeps it unless the pool is full.
-/

namespace IdlScope

/-- The idle buffers of a run and how many of them may be kept. -/
structure BufferPool where
  maxIdle : Nat
  idle : List String

namespace BufferPool

/-- The number of idle buffers kept unless told otherwise. -/
def defaultMaxIdle : Nat := 16

/-- A pool that has not been used yet. -/
def new (maxIdle : Nat) : BufferPool := ⟨maxIdle, []⟩

/-- An empty buffer and the pool without it. -/
def checkout (p : BufferPool) : String × BufferPool :=
  match p.idle with
  | [] => ("", p)
  | buffer :: rest => (buffer, { p with idle := rest })

/-- The buffer without its content. -/
def cleared (_buffer : String) : String := ""

/-- Empties a buffer and keeps it if there is room. -/
def giveBack (p : BufferPool) (buffer : String) : BufferPool :=
  if p.idle.length < p.maxIdle then { p with idle := cleared buffer :: p.idle } else p

/-- A one-line description. -/
def summary (p : BufferPool) : String :=
  "BufferPool \x7b idle: " ++ toString p.idle.length ++ ", max_idle: " ++ toString p.maxIdle ++
    " \x7d"

/-- Every idle buffer is empty. -/
def Clean (p : BufferPool) : Prop :=
  ∀ buffer ∈ p.idle, buffer = ""

theorem clean_new (maxIdle : Nat) : (new maxIdle).Clean := by
  simp [Clean, new]

/-- A buffer checked out of a clean pool is empty. -/
theorem checkout_fst {p : BufferPool} (h : p.Clean) : p.checkout.1 = "" := by
  unfold checkout
  split
  · rfl
  · next buffer rest eq => exact h buffer (by simp [eq])

theorem clean_checkout {p : BufferPool} (h : p.Clean) : p.checkout.2.Clean := by
  unfold checkout
  split
  · exact h
  · next buffer rest eq =>
    intro b hb
    exact h b (by simp [eq, hb])

theorem clean_giveBack {p : BufferPool} (h : p.Clean) (buffer : String) :
    (p.giveBack buffer).Clean := by
  unfold giveBack
  split
  · intro b hb
    rcases List.mem_cons.mp hb with rfl | hb
    · rfl
    · exact h b hb
  · exact h

end BufferPool

end IdlScope
