import TableQuery.Regex.Basic

/-!
What a regular expression matches. A match is sought together with what must
follow it: an expression is given a continuation, and of all the ways to match
it takes the most preferred one that lets the continuation succeed.
Alternatives are preferred as they are written, and a search prefers earlier
places to later ones. A way that comes back to an alternative or a loop without
having taken a character is none.
-/

namespace TableQuery

/-- A place in a text: the character before it, if any, and what follows. The
number of characters that follow is kept so that two places on one text can be
compared at once. -/
structure Cursor where
  previous : Option Char
  rest : List Char
  remaining : Nat
  remaining_eq : remaining = rest.length
deriving DecidableEq, Repr

namespace Cursor

def first (text : List Char) : Cursor :=
  ⟨none, text, text.length, rfl⟩

/-- The character that follows, and the place after it. -/
def next? : Cursor → Option (Char × Cursor)
  | ⟨_, c :: rest, remaining, h⟩ => some (c, ⟨some c, rest, remaining - 1, by simp [h]⟩)
  | ⟨_, [], _, _⟩ => none

theorem remaining_next? {cursor next : Cursor} {c : Char} (h : cursor.next? = some (c, next)) :
    next.remaining < cursor.remaining := by
  unfold next? at h
  split at h
  · rename_i hremaining
    simp only [Option.some.injEq, Prod.mk.injEq] at h
    obtain ⟨_, rfl⟩ := h
    simp only [hremaining, List.length_cons]
    omega
  · simp at h

/-- Whether the characters before and after the place are word characters. -/
def besideWords (cursor : Cursor) (unicode : Bool) : Bool × Bool :=
  let isWord := if unicode then Text.isWord else fun c => c.isAlphanum || c = '_'
  (cursor.previous.any isWord, cursor.rest.head?.any isWord)

def upTo (start stop : Cursor) : List Char :=
  start.rest.take (start.remaining - stop.remaining)

end Cursor

def Assertion.holds (cursor : Cursor) : Assertion → Bool
  | start => cursor.previous.isNone
  | stop => cursor.rest.isEmpty
  | lineStart false => cursor.previous.all (· = '\n')
  | lineStart true =>
    cursor.previous.all (· = '\n') ||
      (cursor.previous.any (· = '\r') && cursor.rest.head?.all (· ≠ '\n'))
  | lineStop false => cursor.rest.head?.all (· = '\n')
  | lineStop true =>
    cursor.rest.head?.all (· = '\r') ||
      (cursor.rest.head?.any (· = '\n') && cursor.previous.all (· ≠ '\r'))
  | boundary present unicode =>
    let (before, after) := cursor.besideWords unicode
    (before != after) = present
  | wordStart half unicode =>
    let (before, after) := cursor.besideWords unicode
    !before && (half || after)
  | wordStop half unicode =>
    let (before, after) := cursor.besideWords unicode
    (half || before) && !after

namespace Regex

variable {β : Type}

/-- The alternatives and loops of an expression are its nodes. They are numbered in the order
in which they are written. -/
def nodes : Regex → Nat
  | empty | chars _ | look _ => 0
  | seq first second => first.nodes + second.nodes
  | alt first second => first.nodes + second.nodes + 1
  | plus _ body | star _ body => body.nodes + 1

/-- How far a match has come, and the nodes that it has met since it took a character. -/
structure Progress where
  cursor : Cursor
  met : List Nat

def Progress.meet (here : Progress) (node : Nat) : Progress :=
  { here with met := node :: here.met }

/-- Any number of steps before the continuation. A step that takes nothing comes back to the
node at once. -/
def iterate (node : Nat) (greedy : Bool) (step : (Progress → Option β) → Progress → Option β)
    (k : Progress → Option β) (here : Progress) : Option β :=
  if node ∈ here.met then none else
  let met := here.meet node
  let more := step (fun next =>
    if next.cursor.remaining < here.cursor.remaining then iterate node greedy step k next
    else none) met
  if greedy then more.or (k met) else (k met).or more
termination_by here.cursor.remaining

/-- Matches an expression whose nodes are numbered from a first one on, and goes on with the
continuation where the match ends. No node is met twice before a character is taken, because
all that can follow it is being tried already. -/
def trace : Regex → Nat → (Progress → Option β) → Progress → Option β
  | empty, _, k, here => k here
  | chars set, _, k, here =>
    match here.cursor.next? with
    | some (c, next) => if set.contains c then k ⟨next, []⟩ else none
    | none => none
  | look assertion, _, k, here => if assertion.holds here.cursor then k here else none
  | seq first second, node, k, here =>
    trace first node (trace second (node + first.nodes) k) here
  | alt first second, node, k, here =>
    if node ∈ here.met then none else
    (trace first (node + 1) k (here.meet node)).or
      (trace second (node + 1 + first.nodes) k (here.meet node))
  | plus greedy body, node, k, here =>
    trace body (node + 1) (iterate node greedy (trace body (node + 1)) k) here
  | star greedy body, node, k, here => iterate node greedy (trace body (node + 1)) k here

/-- The place where the preferred match that begins at a place ends. -/
def endAt? (re : Regex) (cursor : Cursor) : Option Cursor :=
  re.trace 0 (fun ending => some ending.cursor) ⟨cursor, []⟩

/-- A match in a text: what comes before, the match and what comes after. -/
structure Found where
  before : List Char
  matched : List Char
  after : List Char
deriving DecidableEq, Repr

def findFrom? (re : Regex) (cursor : Cursor) : Option Found :=
  match re.endAt? cursor with
  | some ending => some ⟨[], cursor.upTo ending, ending.rest⟩
  | none =>
    match h : cursor.next? with
    | some (c, next) =>
      have := Cursor.remaining_next? h
      (findFrom? re next).map fun found => { found with before := c :: found.before }
    | none => none
termination_by cursor.remaining

def find? (re : Regex) (text : List Char) : Option Found :=
  re.findFrom? (.first text)

end Regex

end TableQuery
