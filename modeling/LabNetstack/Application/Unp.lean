import LabNetstack.Bytes

/-!
# Lines over a stream

`unp.c`: `read` and `write` move as many bytes as they like, so `writen` and `readline` call them in a
loop. Each loop is cut at its calls: what it has while it waits, and what the answer makes of it.
`fgets` and `strlen` are those of the C library.

What `fgets` returns ends where a newline does, or where the buffer does, and `readline` stops at
the same two places. So a line that comes back unchanged is recognized as it was sent.

## Main results

* `fgets_isLine` — what a line is
* `readlineTurn_line` — `readline` returns a line when it has all of it, and not before
-/

namespace LabNetstack

/-- `'\n'`. -/
def newline : Byte := 0x0a

def MAXLINE : ℕ := 4096

/-- What the caller of `read` or `write` sees afterwards: what is returned, what has been put in the
buffer, and whether `errno` is `EINTR`. -/
structure Answer where
  ret : ℤ
  bytes : List Byte
  eintr : Bool

/-- The loop of `writen`, with `nleft` bytes left, after one call of `write`: it goes on, or it
returns. A call that was interrupted is taken for one that has written -1 bytes. -/
def writenTurn (nbytes nleft : ℕ) (answer : Answer) : ℕ ⊕ ℤ :=
  if answer.ret = 0 ∨ answer.ret < 0 ∧ answer.eintr = false then .inr (-1)
  else
    let nleft := (nleft - answer.ret : ℤ).toNat
    if 0 < nleft then .inl nleft else .inr nbytes

/-- The loop of `readline`, with `n - 1` bytes stored, after one call of `read`. -/
def readlineTurn (maxlen : ℕ) (stored : List Byte) (answer : Answer) :
    List Byte ⊕ ℤ × List Byte :=
  let n := stored.length + 1
  if answer.ret = 1 then
    let c := answer.bytes.headD 0
    let stored := stored ++ [c]
    if c = newline then .inr (n, stored)
    else if n + 1 < maxlen then .inl stored
    else .inr (n + 1, stored)
  else if answer.ret = 0 then .inr (n - 1, stored)
  else if answer.eintr then .inl stored
  else .inr (-1, stored)

/-- At most `n` bytes of the file, up to the first newline, and the rest of the file. -/
def takeLine : ℕ → List Byte → List Byte × List Byte
  | 0, file => ([], file)
  | _ + 1, [] => ([], [])
  | n + 1, c :: file =>
    if c = newline then ([c], file)
    else
      let (line, rest) := takeLine n file
      (c :: line, rest)

/-- `fgets`; `none` is `NULL`. -/
def fgets (size : ℕ) (file : List Byte) : Option (List Byte × List Byte) :=
  if file = [] then none else some (takeLine (size - 1) file)

def strlen (s : List Byte) : ℕ := (s.takeWhile fun c => c ≠ 0).length

theorem strlen_le (s : List Byte) : strlen s ≤ s.length := (List.takeWhile_prefix _).length_le

/-! ### Lines -/

/-- What `fgets` returns, with a buffer of `MAXLINE` bytes. -/
structure IsLine (line : List Byte) : Prop where
  length_lt : line.length < MAXLINE
  /-- A newline ends it. -/
  newline_last : ∀ start, start ++ [newline] <+: line → start ++ [newline] = line

theorem takeLine_append (n : ℕ) (file : List Byte) :
    (takeLine n file).1 ++ (takeLine n file).2 = file := by
  induction n generalizing file with
  | zero => rfl
  | succ n ih =>
    cases file with
    | nil => rfl
    | cons c file =>
      rw [takeLine]
      split_ifs with hc
      · rfl
      · exact congrArg (c :: ·) (ih file)

theorem length_takeLine_le (n : ℕ) (file : List Byte) : (takeLine n file).1.length ≤ n := by
  induction n generalizing file with
  | zero => exact le_rfl
  | succ n ih =>
    cases file with
    | nil => exact Nat.zero_le _
    | cons c file =>
      rw [takeLine]
      split_ifs with hc
      · exact Nat.succ_le_succ (Nat.zero_le n)
      · exact Nat.succ_le_succ (ih file)

theorem newline_takeLine (n : ℕ) {file start : List Byte}
    (h : start ++ [newline] <+: (takeLine n file).1) :
    start ++ [newline] = (takeLine n file).1 := by
  induction n generalizing file start with
  | zero => exact absurd (List.prefix_nil.mp h) (by simp)
  | succ n ih =>
    cases file with
    | nil => exact absurd (List.prefix_nil.mp h) (by simp)
    | cons c file =>
      rw [takeLine] at h ⊢
      split_ifs at h ⊢ with hc
      · -- the line is the newline alone
        refine h.eq_of_length (Nat.le_antisymm h.length_le ?_)
        simp
      · cases start with
        | nil => exact absurd (List.cons_prefix_cons.mp h).1.symm hc
        | cons c' start =>
          obtain ⟨rfl, hrest⟩ := List.cons_prefix_cons.mp h
          exact congrArg (c' :: ·) (ih hrest)

theorem fgets_isLine {file line rest : List Byte} (h : fgets MAXLINE file = some (line, rest)) :
    IsLine line ∧ line ++ rest = file := by
  rw [fgets] at h
  split_ifs at h
  obtain ⟨rfl, rfl⟩ := Prod.mk.inj (Option.some.inj h)
  refine ⟨⟨?_, fun start hstart => newline_takeLine _ hstart⟩, takeLine_append _ _⟩
  exact Nat.lt_of_le_of_lt (length_takeLine_le _ _) (by decide)

/-- **One byte of a line.** While more is to come, `readline` goes on; and it returns the whole line
when it has it. -/
theorem readlineTurn_line {line stored : List Byte} (h : IsLine line) {c : Byte}
    (hread : stored ++ [c] <+: line) {answer : Answer} (hret : answer.ret = 1)
    (hbytes : answer.bytes = [c]) :
    (readlineTurn MAXLINE stored answer = .inl (stored ++ [c]) ∧
      (stored ++ [c]).length + 1 < MAXLINE) ∨
    stored ++ [c] = line ∧
      ∃ ret, 0 < ret ∧ readlineTurn MAXLINE stored answer = .inr (ret, line) := by
  have hhead : answer.bytes.headD 0 = c := by rw [hbytes, List.headD_cons]
  simp only [readlineTurn, if_pos hret, hhead]
  have hlen := hread.length_le
  have hline := h.length_lt
  rw [List.length_append, List.length_singleton] at hlen ⊢
  split_ifs with hc hn
  · subst hc
    have hall := h.newline_last stored hread
    refine Or.inr ⟨hall, _, ?_, by rw [hall]⟩
    omega
  · exact Or.inl ⟨rfl, hn⟩
  · -- the buffer is full, and the line is no longer than that
    have hall : stored ++ [c] = line := hread.eq_of_length (by
      rw [List.length_append, List.length_singleton]
      omega)
    refine Or.inr ⟨hall, _, ?_, by rw [hall]⟩
    omega

end LabNetstack
