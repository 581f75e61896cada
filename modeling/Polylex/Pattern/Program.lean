import Polylex.Pattern.Basic
import Polylex.Pattern.Regex

/-!
# Programs and their preferred match

A `Polylex.Program` is a regular expression as a list of instructions. Threads of the program, in
the order of preference, read the text together, one character at a time.

* `Polylex.Program.ofRegex` writes the program of an expression;
* `Polylex.Program.follow` takes threads as far as they come between two characters: to the
  instructions that read the next character, best first, or to acceptance;
* `Polylex.Program.preferred?` runs the threads through a text, and `Polylex.Program.matchAt?`
  gives the number of characters of the preferred match at its start;
* `Polylex.Program.pattern` is the pattern that the program runs.

Between two characters no instruction is visited twice: the most preferred thread that
comes to it visits it, and every later one ends there. So a repetition whose body has read
nothing does not begin the body again at the same place, and all loops end.
-/

namespace Polylex

/-- An instruction. Instructions are named by their index in the program. -/
inductive Instruction where
  /-- Reads a character of a set and goes on at `next`. -/
  | read (s : CharSet) (next : Nat)
  /-- Goes on at `next` where the anchor holds. -/
  | check (a : Anchor) (next : Nat)
  /-- Goes on at both, and prefers the first. -/
  | fork (first second : Nat)
  | accept
deriving Repr, DecidableEq

/-- A program, and the instruction it starts with. -/
structure Program where
  code : Array Instruction
  start : Nat
deriving Repr, DecidableEq

namespace Program

/-! ### Compilation -/

/-- How the instructions of an expression are appended to a program that goes on at `next`
after the expression. Gives the instruction that the expression starts with. -/
abbrev Fragment := (next : Nat) → Array Instruction → Nat × Array Instruction

namespace Fragment

/-- No instructions. -/
def none : Fragment := fun next code => (next, code)

/-- A single instruction. -/
def single (instruction : (next : Nat) → Instruction) : Fragment := fun next code =>
  (code.size, code.push (instruction next))

/-- The instructions of two expressions one after the other. -/
def andThen (p q : Fragment) : Fragment := fun next code =>
  let (middle, code) := q next code
  p middle code

/-- A fork between two expressions. -/
def orElse (p q : Fragment) : Fragment := fun next code =>
  let (second, code) := q next code
  let (first, code) := p next code
  (code.size, code.push (.fork first second))

/-- A fork between an expression and nothing. A greedy one prefers the expression. -/
def optional (greedy : Bool) (p : Fragment) : Fragment :=
  if greedy then p.orElse none else none.orElse p

/-- A loop: a fork that the expression comes back to. The fork takes its place before the
instructions of the expression, which refer to it. Gives the fork, and the instruction that
the expression starts with. -/
def loop (greedy : Bool) (p : Fragment) (next : Nat) (code : Array Instruction) :
    (Nat × Nat) × Array Instruction :=
  let again := code.size
  let (body, code) := p again (code.push .accept)
  ((again, body), code.setIfInBounds again (if greedy then .fork body next else .fork next body))

/-- A loop that starts with its fork. -/
def star (greedy : Bool) (p : Fragment) : Fragment := fun next code =>
  let ((again, _), code) := p.loop greedy next code
  (again, code)

/-- A loop that starts with its expression. -/
def plus (greedy : Bool) (p : Fragment) : Fragment := fun next code =>
  let ((_, body), code) := p.loop greedy next code
  (body, code)

/-- A number of copies one after the other. -/
def copies (p : Fragment) : Nat → Fragment
  | 0 => none
  | n + 1 => p.andThen (p.copies n)

/-- Up to a number of copies, each inside the option to go on. -/
def upTo (greedy : Bool) (p : Fragment) : Nat → Fragment
  | 0 => none
  | n + 1 => optional greedy (p.andThen (p.upTo greedy n))

/-- A repetition. Of one that has no bound, the last copy is the one in the loop; without any
copy before it the loop starts with its fork if the expression always reads a character, and
is an option otherwise. -/
def times (greedy alwaysReads : Bool) (p : Fragment) :
    (least : Nat) → (most : Option Nat) → Fragment
  | 0, .none => if alwaysReads then p.star greedy else (p.plus greedy).optional greedy
  | least + 1, .none => (p.copies least).andThen (p.plus greedy)
  | least, some most => (p.copies least).andThen (p.upTo greedy (most - least))

end Fragment

/-- The instructions of an expression. -/
def compile : Regex → Fragment
  | .empty => .none
  | .one s => .single (.read s)
  | .anchor a => .single (.check a)
  | .seq p q => (compile p).andThen (compile q)
  | .either p q => (compile p).orElse (compile q)
  | .repeated p least most greedy => (compile p).times greedy p.alwaysReads least most
  | .group p => compile p

/-- The program of an expression: what follows the expression is acceptance. -/
def ofRegex (r : Regex) : Program :=
  let (start, code) := compile r 0 #[.accept]
  ⟨code, start⟩

/-! ### Running -/

/-- Where threads come to between two characters: the sets they read, each with the
instruction after it, best first, as far as they are preferred to acceptance; and whether a
thread accepts. -/
structure Frontier where
  reads : List (CharSet × Nat) := []
  accepts : Bool := false
deriving Repr, DecidableEq

/-- Takes threads to the instructions that read the next character. `visited` holds the
instructions that have been visited. Every step visits a new one, so as many steps as there
are instructions are enough. -/
def followFor (code : Array Instruction) (before after : Option Char) :
    (steps : Nat) → (threads visited : List Nat) → Frontier
  | 0, _, _ => {}
  | steps + 1, threads, visited =>
    match threads.dropWhile visited.contains with
    | [] => {}
    | i :: rest =>
      let go (threads : List Nat) : Frontier :=
        followFor code before after steps threads (i :: visited)
      match code[i]? with
      | none => go rest
      | some (.read s next) => let f := go rest; { f with reads := (s, next) :: f.reads }
      | some (.check a next) => go (if a.holds before after then next :: rest else rest)
      | some (.fork first second) => go (first :: second :: rest)
      | some .accept => { accepts := true }

/-- Takes threads of a program to the instructions that read the next character. -/
def follow (p : Program) (before after : Option Char) (threads : List Nat) : Frontier :=
  followFor p.code before after p.code.size threads []

/-- The number of characters of the preferred match of some threads at the start of a text,
given the character before it. -/
def preferred? (p : Program) (before : Option Char) (threads : List Nat) : Text → Option Nat
  | [] => if (p.follow before none threads).accepts then some 0 else none
  | c :: t =>
    let frontier := p.follow before (some c) threads
    let advanced := frontier.reads.filterMap fun (s, next) =>
      if s.contains c then some next else none
    match if advanced.isEmpty then none else preferred? p (some c) advanced t with
    | some n => some (n + 1)
    | none => if frontier.accepts then some 0 else none

/-- The number of characters of the preferred match at the start of a text, with nothing in
front of it. -/
def matchAt? (p : Program) (t : Text) : Option Nat := p.preferred? none [p.start] t

theorem preferred?_le {p : Program} {before : Option Char} {threads : List Nat} {t : Text}
    {n : Nat} (h : p.preferred? before threads t = some n) : n ≤ t.length := by
  induction t generalizing before threads n with
  | nil =>
    rw [preferred?] at h
    split at h <;> cases h
    exact Nat.le_refl 0
  | cons c t ih =>
    rw [preferred?] at h
    dsimp only at h
    split at h
    next m hm =>
      cases h
      split at hm
      · cases hm
      · exact Nat.succ_le_succ (ih hm)
    next =>
      split at h <;> cases h
      exact Nat.zero_le _

/-- The pattern that a program runs. -/
def pattern (p : Program) : Pattern where
  matchAt? := p.matchAt?
  length_le := preferred?_le

end Program

/-- The pattern of an expression. -/
def Pattern.ofRegex (r : Regex) : Pattern := (Program.ofRegex r).pattern

end Polylex
