import Mathlib.Data.BitVec
import OpalCpp.Machine.Fragment
import OpalCpp.Model.Core.Error

/-! # The regular-expression engine: parse tree, compiler and virtual machine

A parse tree compiles to a Thompson program, by appending instructions and patching the targets of
jumps once they are known, and `Search` runs the program over the bytes of a text with all its
threads in step. The lists of threads and the stamps that keep an instruction from being expanded
twice at one position are as the source has them, stamps in 32 bits included.

The work list of `AddThread` is given fuel; every instruction is expanded at most once and pushes
at most two others, so twice the program and a little more is never used up.
-/

namespace OpalCpp.Regex

def kMaxProgramSize : ℕ := 65536

def byteOf (c : Char) : UInt8 := UInt8.ofNat c.toNat

def isWordByte (c : UInt8) : Bool :=
  (byteOf 'a' ≤ c && c ≤ byteOf 'z') || (byteOf 'A' ≤ c && c ≤ byteOf 'Z') ||
    (byteOf '0' ≤ c && c ≤ byteOf '9') || c == byteOf '_'

/-- A set of bytes, `std::bitset<256>`. -/
abbrev ByteClass := BitVec 256

namespace ByteClass

def test (cls : ByteClass) (c : UInt8) : Bool := cls.getLsbD c.toNat

def set (cls : ByteClass) (c : UInt8) : ByteClass := cls ||| BitVec.twoPow 256 c.toNat

def reset (cls : ByteClass) (c : UInt8) : ByteClass := cls &&& ~~~BitVec.twoPow 256 c.toNat

/-- The class with every byte of a list added. -/
def setAll (cls : ByteClass) (bytes : List UInt8) : ByteClass := bytes.foldl set cls

end ByteClass

/-- The bytes from `lo` to `hi`, both included. -/
def byteRange (lo hi : ℕ) : List UInt8 := (List.range' lo (hi + 1 - lo)).map UInt8.ofNat

def digitClass : ByteClass := ByteClass.setAll 0 (byteRange 48 57)

def wordClass : ByteClass := ByteClass.setAll 0 ((byteRange 0 255).filter isWordByte)

def spaceClass : ByteClass := ByteClass.setAll 0 [0x20, 0x09, 0x0a, 0x0d, 0x0c, 0x0b]

/-- Everything but the line terminators. -/
def dotClass : ByteClass := ByteClass.reset (ByteClass.reset (BitVec.allOnes 256) 0x0a) 0x0d

inductive Assert where
  | inputStart | inputEnd | wordBoundary | notWordBoundary
deriving DecidableEq, Repr

/-- The assertion holds at a position of the whole text. -/
def Assert.holds (kind : Assert) (text : List UInt8) (pos : ℕ) : Bool :=
  let before := 0 < pos && text[pos - 1]?.any isWordByte
  let after := text[pos]?.any isWordByte
  match kind with
  | .inputStart => pos == 0
  | .inputEnd => pos == text.length
  | .wordBoundary => before != after
  | .notWordBoundary => before == after

/-- The parse tree. -/
inductive Node where
  | empty
  | byte (byte : UInt8)
  | cls (cls : ByteClass)
  | concat (children : List Node)
  | alt (children : List Node)
  /-- The body, `min` times or more; at most `max` times if there is a bound. -/
  | repetition (min : ℕ) (max : Option ℕ) (body : Node)
  | assertion (kind : Assert)

inductive Inst where
  | byte (byte : UInt8)
  /-- One byte of the class with this number. -/
  | cls (arg : ℕ)
  /-- Go on at the next instruction and at `arg`. -/
  | split (arg : ℕ)
  | jmp (arg : ℕ)
  | assertion (kind : Assert)
  | matched
deriving DecidableEq, Repr

/-- The instruction with its argument set. -/
def Inst.withArg (inst : Inst) (arg : ℕ) : Inst :=
  match inst with
  | .cls _ => .cls arg
  | .split _ => .split arg
  | .jmp _ => .jmp arg
  | inst => inst

end Regex

/-- A compiled regular expression. -/
structure Regex where
  program : List Regex.Inst := []
  classes : List Regex.ByteClass := []
deriving DecidableEq, Repr

namespace Regex

def here (re : Regex) : ℕ := re.program.length

def add (re : Regex) (inst : Inst) : Outcome Regex :=
  if kMaxProgramSize ≤ re.program.length then
    .error (.Serialization "Regex: pattern compiles to too large a program")
  else .ok { re with program := re.program ++ [inst] }

/-- The number of the class, which is added if it is not there yet. -/
def addClass (re : Regex) (cls : ByteClass) : Regex × ℕ :=
  match re.classes.findIdx? (· == cls) with
  | some index => (re, index)
  | none => ({ re with classes := re.classes ++ [cls] }, re.classes.length)

/-- `program_[pc].arg = arg`. -/
def patch (re : Regex) (arg pc : ℕ) : Regex :=
  { re with program := re.program.modify pc (·.withArg arg) }

/-- Every one of these jumps goes to the end of the program. -/
def patchAll (re : Regex) (pcs : List ℕ) : Regex := pcs.foldl (patch · re.here) re

/-- The body this many times in sequence. -/
def emitTimes (body : Regex → Outcome Regex) : ℕ → Regex → Outcome Regex
  | 0, re => .ok re
  | count + 1, re => do
    let re ← body re
    emitTimes body count re

/-- The optional copies of a bounded repetition, and where their splits are. -/
def emitOptional (body : Regex → Outcome Regex) : ℕ → Regex → List ℕ → Outcome (Regex × List ℕ)
  | 0, re, splits => .ok (re, splits)
  | count + 1, re, splits => do
    let added ← re.add (.split 0)
    let emitted ← body added
    emitOptional body count emitted (splits ++ [re.here])

/-- The looping copy of an unbounded repetition. -/
def emitLoop (body : Regex → Outcome Regex) (re : Regex) : Outcome Regex := do
  let added ← re.add (.split 0)
  let emitted ← body added
  let closed ← emitted.add (.jmp re.here)
  return closed.patch closed.here re.here

def emitRepeat (min : ℕ) (max : Option ℕ) (body : Regex → Outcome Regex) (re : Regex) :
    Outcome Regex := do
  let re ← emitTimes body min re
  match max with
  | none => emitLoop body re
  | some max => do
    let (re, splits) ← emitOptional body (max - min) re []
    return re.patchAll splits

mutual

def emit : Node → Regex → Outcome Regex
  | .empty, re => .ok re
  | .byte byte, re => re.add (.byte byte)
  | .cls cls, re => (re.addClass cls).1.add (.cls (re.addClass cls).2)
  | .assertion kind, re => re.add (.assertion kind)
  | .concat children, re => emitAll children re
  | .alt children, re => do
    let (re, jumps) ← emitAlternatives children re []
    return re.patchAll jumps
  | .repetition min max body, re => emitRepeat min max (emit body) re

def emitAll : List Node → Regex → Outcome Regex
  | [], re => .ok re
  | child :: children, re => do
    let re ← emit child re
    emitAll children re

/-- split; A; jmp end; split; B; jmp end; ...; C, and where the jumps to the end are. -/
def emitAlternatives : List Node → Regex → List ℕ → Outcome (Regex × List ℕ)
  | [], re, jumps => .ok (re, jumps)
  | child :: children, re, jumps =>
    if children.isEmpty then do
      let re ← emit child re
      return (re, jumps)
    else do
      let added ← re.add (.split 0)
      let emitted ← emit child added
      let jumped ← emitted.add (.jmp 0)
      emitAlternatives children (jumped.patch jumped.here re.here) (jumps ++ [emitted.here])

end

/-- The tree as a program that ends in its only match. -/
def compileTree (tree : Node) : Outcome Regex := do
  let re ← emit tree {}
  re.add .matched

/-- What a call of `AddThread` leaves behind: whether it came to a match, the list of threads, the
stamps, and the count of instructions processed so far. -/
structure Closure where
  matched : Bool := false
  list : List ℕ := []
  seen : List UInt32
  steps : ℕ := 0
deriving DecidableEq, Repr

/-- The loop of `AddThread` with its work list, the top of the stack first. -/
def addThreadLoop (re : Regex) (stamp : UInt32) (text : List UInt8) (pos : ℕ) :
    ℕ → List ℕ → Closure → Closure
  | 0, _, closure => closure
  | _, [], closure => closure
  | fuel + 1, pc :: work, closure =>
    if closure.seen[pc]? = some stamp then addThreadLoop re stamp text pos fuel work closure
    else
      let marked :=
        { closure with seen := closure.seen.set pc stamp, steps := closure.steps + 1 }
      match re.program[pc]? with
      | some .matched => { marked with matched := true }
      | some (.jmp arg) => addThreadLoop re stamp text pos fuel (arg :: work) marked
      | some (.split arg) => addThreadLoop re stamp text pos fuel (arg :: (pc + 1) :: work) marked
      | some (.assertion kind) =>
        addThreadLoop re stamp text pos fuel
          (if kind.holds text pos then (pc + 1) :: work else work) marked
      | some (.byte _) | some (.cls _) =>
        addThreadLoop re stamp text pos fuel work { marked with list := marked.list ++ [pc] }
      | none => addThreadLoop re stamp text pos fuel work marked

def addThread (re : Regex) (closure : Closure) (stamp : UInt32) (pc : ℕ) (text : List UInt8) (pos : ℕ) :
    Closure :=
  addThreadLoop re stamp text pos (2 * re.program.length + 2) [pc] closure

/-- The thread at `pc` consumes the byte. -/
def consumes (re : Regex) (pc : ℕ) (c : UInt8) : Bool :=
  match re.program[pc]? with
  | some (.byte byte) => byte == c
  | some (.cls arg) => re.classes[arg]?.any (·.test c)
  | _ => false

/-- The threads of `current` over the byte at `pos`, into the next list. -/
def advance (re : Regex) (text : List UInt8) (pos : ℕ) (c : UInt8) : List ℕ → Closure → Closure
  | [], next => next
  | pc :: rest, next =>
    if re.consumes pc c then
      let next := re.addThread next (UInt32.ofNat pos + 2) (pc + 1) text (pos + 1)
      if next.matched then next else advance re text pos c rest next
    else advance re text pos c rest next

/-- The loop of `Search` from a position on, with the bytes still to read. -/
def searchFrom (re : Regex) (text : List UInt8) : List UInt8 → ℕ → Closure → Bool × ℕ
  | rest, pos, current =>
    let current := re.addThread current (UInt32.ofNat pos + 1) 0 text pos
    if current.matched then (true, current.steps)
    else
      match rest with
      | [] => (false, current.steps)
      | c :: rest =>
        let next := re.advance text pos c current.list { current with list := [] }
        if next.matched then (true, next.steps) else searchFrom re text rest (pos + 1) next

/-- `Search` with the count of its steps. -/
def searchCounting (re : Regex) (text : List UInt8) : Bool × ℕ :=
  if re.program.isEmpty then (false, 0)
  else re.searchFrom text text 0 { seen := List.replicate re.program.length 0 }

def search (re : Regex) (text : List UInt8) : Bool := (re.searchCounting text).1

/-! ## Accesses

`AddThread` and `Search` with every access to the program, the classes, the stamps and the text checked: there is no
result where an index is out of range, nor where a work list outlasts its fuel.
-/

/-- `arg`, which is 0 where nothing sets it. -/
def Inst.arg : Inst → ℕ
  | .cls arg | .split arg | .jmp arg => arg
  | _ => 0

/-- Whether there is a word byte on each side: a side that has a byte reads it. -/
def wordBefore? (text : List UInt8) (pos : ℕ) : Option Bool :=
  if 0 < pos then text[pos - 1]?.map isWordByte else some false

def wordAfter? (text : List UInt8) (pos : ℕ) : Option Bool :=
  if pos < text.length then text[pos]?.map isWordByte else some false

def Assert.holds? (kind : Assert) (text : List UInt8) (pos : ℕ) : Option Bool := do
  let before ← wordBefore? text pos
  let after ← wordAfter? text pos
  match kind with
  | .inputStart => return pos == 0
  | .inputEnd => return pos == text.length
  | .wordBoundary => return before != after
  | .notWordBoundary => return before == after

def addThreadLoop? (re : Regex) (stamp : UInt32) (text : List UInt8) (pos : ℕ) : ℕ → List ℕ → Closure → Option Closure
  | _, [], closure => some closure
  | 0, _ :: _, _ => none
  | fuel + 1, pc :: work, closure => do
    let seen ← closure.seen[pc]?
    if seen = stamp then addThreadLoop? re stamp text pos fuel work closure
    else
      let marked := { closure with seen := closure.seen.set pc stamp, steps := closure.steps + 1 }
      let inst ← re.program[pc]?
      match inst with
      | .matched => some { marked with matched := true }
      | .jmp arg => addThreadLoop? re stamp text pos fuel (arg :: work) marked
      | .split arg => addThreadLoop? re stamp text pos fuel (arg :: (pc + 1) :: work) marked
      | .assertion kind => do
        let holds ← kind.holds? text pos
        addThreadLoop? re stamp text pos fuel (if holds then (pc + 1) :: work else work) marked
      | .byte _ | .cls _ => addThreadLoop? re stamp text pos fuel work { marked with list := marked.list ++ [pc] }

def addThread? (re : Regex) (closure : Closure) (stamp : UInt32) (pc : ℕ) (text : List UInt8) (pos : ℕ) : Option Closure :=
  addThreadLoop? re stamp text pos (2 * re.program.length + 2) [pc] closure

/-- Whether the thread at `pc` consumes the byte: one that is not of a byte is taken for one of a class. -/
def consumes? (re : Regex) (pc : ℕ) (c : UInt8) : Option Bool := do
  let inst ← re.program[pc]?
  match inst with
  | .byte byte => return byte == c
  | inst => re.classes[inst.arg]?.map (·.test c)

def advance? (re : Regex) (text : List UInt8) (pos : ℕ) (c : UInt8) : List ℕ → Closure → Option Closure
  | [], next => some next
  | pc :: rest, next => do
    if ← re.consumes? pc c then
      let next ← re.addThread? next (UInt32.ofNat pos + 2) (pc + 1) text (pos + 1)
      if next.matched then some next else advance? re text pos c rest next
    else advance? re text pos c rest next

def searchFrom? (re : Regex) (text : List UInt8) : List UInt8 → ℕ → Closure → Option (Bool × ℕ)
  | rest, pos, current => do
    let current ← re.addThread? current (UInt32.ofNat pos + 1) 0 text pos
    if current.matched then some (true, current.steps)
    else
      match rest with
      | [] => some (false, current.steps)
      | c :: rest => do
        let next ← re.advance? text pos c current.list { current with list := [] }
        if next.matched then some (true, next.steps) else searchFrom? re text rest (pos + 1) next

/-- `Search` with the count of its steps. -/
def search? (re : Regex) (text : List UInt8) : Option (Bool × ℕ) :=
  if re.program.isEmpty then some (false, 0)
  else re.searchFrom? text text 0 { seen := List.replicate re.program.length 0 }

end Regex

end OpalCpp

/-! # What a parse tree matches and what a program does

The meaning of a tree is the set of stretches of the text it matches, given by the positions where
they start and end; assertions look at their position in the whole text. The steps of a program are
those of a machine of one thread: where several are possible, the engine follows them all.
-/

namespace OpalCpp.Regex

mutual

/-- The tree matches the text from one position to another. -/
def Node.Matches (text : List UInt8) : Node → ℕ → ℕ → Prop
  | .empty => Eq
  | .byte byte => fun first last => text[first]? = some byte ∧ last = first + 1
  | .cls cls => fun first last => (∃ c, text[first]? = some c ∧ cls.test c = true) ∧ last = first + 1
  | .assertion kind => fun first last => kind.holds text first = true ∧ last = first
  | .concat children => matchesAll text children
  | .alt children => matchesAny text children
  | .repetition min max body => fun first last =>
    ∃ count, min ≤ count ∧ (∀ bound ∈ max, count ≤ bound) ∧ power (body.Matches text) count first last

def matchesAll (text : List UInt8) : List Node → ℕ → ℕ → Prop
  | [] => Eq
  | child :: children => Relation.Comp (child.Matches text) (matchesAll text children)

def matchesAny (text : List UInt8) : List Node → ℕ → ℕ → Prop
  | [] => fun _ _ => False
  | child :: children => fun first last =>
    child.Matches text first last ∨ matchesAny text children first last

end

mutual

/-- The trees the parser builds: a bounded repetition has its bounds in order, and an alternation
has a branch. -/
def Node.WellFormed : Node → Prop
  | .concat children => allWellFormed children
  | .alt children => children ≠ [] ∧ allWellFormed children
  | .repetition min max body => (∀ bound ∈ max, min ≤ bound) ∧ body.WellFormed
  | _ => True

def allWellFormed : List Node → Prop
  | [] => True
  | child :: children => child.WellFormed ∧ allWellFormed children

end

/-- One step of a thread, from an instruction and a position to the next ones. -/
def Step (re : Regex) (text : List UInt8) (source next : ℕ × ℕ) : Prop :=
  match re.program[source.1]? with
  | some (.jmp arg) => next = (arg, source.2)
  | some (.split arg) => next = (source.1 + 1, source.2) ∨ next = (arg, source.2)
  | some (.assertion kind) => kind.holds text source.2 = true ∧ next = (source.1 + 1, source.2)
  | some (.byte _) | some (.cls _) =>
    ∃ c, text[source.2]? = some c ∧ re.consumes source.1 c = true ∧ next = (source.1 + 1, source.2 + 1)
  | some .matched | none => False

end OpalCpp.Regex
