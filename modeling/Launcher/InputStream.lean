import Launcher.Bytes

/-! Reading a stream of bytes through a buffer, which each read fills anew from the front. A read
may find fewer bytes than there is room for, and finds none only at the end of the stream. -/
namespace Launcher

/-- A stream, as the pieces in which its bytes come. -/
abbrev InputStream := List Bytes

/-- A buffer. What was put into it last lies in front of what is left of older bytes there; places
that nothing was put into are not listed. -/
structure Buffer where
  capacity : Nat
  bytes : Bytes

namespace Buffer

def ofCapacity (capacity : Nat) : Buffer := ⟨capacity, []⟩

def fill (b : Buffer) (chunk : Bytes) : Buffer :=
  { b with bytes := chunk ++ b.bytes.drop chunk.length }

def front (b : Buffer) (count : Nat) : Bytes := b.bytes.take count

/-- The bytes of the last read are those in front, and none of the older ones. -/
theorem front_fill (b : Buffer) (chunk : Bytes) : (b.fill chunk).front chunk.length = chunk := by
  simp [fill, front]

end Buffer

namespace InputStream

def ofBytes (content : Bytes) : InputStream := [content]

def content (s : InputStream) : Bytes := s.flatten

/-- Takes what comes next, as far as there is room for it. -/
def next (capacity : Nat) : InputStream → Bytes × InputStream
  | [] => ([], [])
  | [] :: rest => next capacity rest
  | (byte :: piece) :: rest =>
    ((byte :: piece).take capacity, (byte :: piece).drop capacity :: rest)

/-- Reads into a buffer. What comes back is the number of bytes read. -/
def readInto (s : InputStream) (b : Buffer) : Nat × Buffer × InputStream :=
  let (chunk, rest) := s.next b.capacity
  (chunk.length, b.fill chunk, rest)

theorem content_ofBytes (content : Bytes) : (ofBytes content).content = content :=
  List.append_nil content

theorem next_content (capacity : Nat) (s : InputStream) :
    (s.next capacity).1 ++ (s.next capacity).2.content = s.content := by
  induction s with
  | nil => rfl
  | cons piece rest ih =>
    cases piece with
    | nil => exact ih
    | cons byte piece =>
      simp only [next, content, List.flatten_cons]
      rw [← List.append_assoc, List.take_append_drop]

theorem content_of_next {capacity : Nat} {s : InputStream} (room : 0 < capacity)
    (ended : (s.next capacity).1 = []) : s.content = [] := by
  induction s with
  | nil => rfl
  | cons piece rest ih =>
    cases piece with
    | nil => exact ih ended
    | cons byte piece =>
      obtain ⟨_, rfl⟩ := Nat.exists_eq_add_one.mpr room
      contradiction

section Read
variable {s rest : InputStream} {b b' : Buffer} {count : Nat}

theorem readInto_content (read : s.readInto b = (count, b', rest)) :
    b'.front count ++ rest.content = s.content := by
  cases read
  rw [Buffer.front_fill, next_content]

theorem readInto_capacity (read : s.readInto b = (count, b', rest)) : b'.capacity = b.capacity := by
  cases read
  rfl

theorem length_readInto (read : s.readInto b = (count, b', rest)) :
    count + rest.content.length = s.content.length := by
  cases read
  rw [← List.length_append, next_content]

/-- A read into a buffer with some room that gives nothing was made at the end. -/
theorem content_of_readInto (room : 0 < b.capacity) (read : s.readInto b = (0, b', rest)) :
    s.content = [] :=
  content_of_next room (List.length_eq_zero_iff.mp (congrArg Prod.fst read))

end Read

/-- Hands on what is read into a buffer, read by read, until a read gives nothing. -/
def fold {σ : Type} (f : σ → Bytes → σ) (state : σ) (b : Buffer) (s : InputStream) : σ :=
  match _read : s.readInto b with
  | (count, b', rest) => if count = 0 then state else fold f (f state (b'.front count)) b' rest
termination_by s.content.length
decreasing_by
  have := length_readInto _read
  omega

/-- Where taking two reads one after the other is taking them at once, the reads of a stream do what
its content does, however it is cut into them. -/
theorem fold_eq {σ : Type} {f : σ → Bytes → σ} (nothing : ∀ state, f state [] = state)
    (joined : ∀ state x y, f (f state x) y = f state (x ++ y)) {b : Buffer} (room : 0 < b.capacity)
    (state : σ) (s : InputStream) : s.fold f state b = f state s.content := by
  induction state, b, s using fold.induct f with
  | case1 state b s b' rest read =>
    rw [fold, read, content_of_readInto room read]
    exact (nothing state).symm
  | case2 state b s count b' rest read given ih =>
    rw [fold, read]
    dsimp only
    rw [if_neg given, ih (readInto_capacity read ▸ room), joined, readInto_content read]

end InputStream
end Launcher
