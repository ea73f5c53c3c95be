import DashboardFilters.Signal.Emission

/-!
Listeners given by data: each has a tag and a few follow-ups, and the calls are logged. A tag names
the connection most recently made under it, also after that connection is gone. Follow-up emissions
are marked, and a marked argument causes no further ones, so that an emission always ends
(`Exchange.emit` needs no bound).
-/

namespace DashboardFilters

/-- After it is called a listener disconnects a tag, connects another listener and emits, as far as
it is told to, in this order. -/
structure TaggedListener where
  tag : String
  disconnects : Option String := none
  connects : Option TaggedListener := none
  emits : Option String := none

inductive CallEntry where
  | called (tag argument : String)
  | disconnected (tag other : String) (removed : Bool)
  | emitted (tag argument : String) (count : Nat)

/-- What tagged listeners share: the connections by tag, the latest first, and the log, the latest
entry first. -/
structure TagBook where
  connections : List (String × ConnectionId) := []
  log : List CallEntry := []

namespace TagBook

def lookup? (book : TagBook) (tag : String) : Option ConnectionId :=
  book.connections.lookup tag

def remember (book : TagBook) (tag : String) (id : ConnectionId) : TagBook :=
  { book with connections := (tag, id) :: book.connections }

def note (book : TagBook) (entry : CallEntry) : TagBook :=
  { book with log := entry :: book.log }

end TagBook

abbrev TaggedReaction := Reaction TagBook TaggedListener String

def followUpMark : Char := '!'

def isMarked (argument : String) : Bool :=
  argument.toList.head? == some followUpMark

def marked (argument : String) : String :=
  String.ofList (followUpMark :: argument.toList)

theorem isMarked_marked (argument : String) : isMarked (marked argument) = true := by
  simp [isMarked, marked]

namespace TaggedListener

def thenDisconnect (l : TaggedListener) (next : TaggedReaction) : TaggedReaction :=
  match l.disconnects with
  | none => next
  | some other =>
      let noted (removed : Bool) : TaggedReaction :=
        .update (·.note (.disconnected l.tag other removed)) next
      .consult fun book =>
        match book.lookup? other with
        | some id => .disconnect id noted
        | none => noted false

def thenConnect (l : TaggedListener) (next : TaggedReaction) : TaggedReaction :=
  match l.connects with
  | none => next
  | some listener => .connect listener fun id => .update (·.remember listener.tag id) next

def thenEmit (l : TaggedListener) (argument : String) : TaggedReaction :=
  match l.emits with
  | none => .done
  | some reply =>
      if isMarked argument then .done
      else .emit (marked reply) fun count => .update (·.note (.emitted l.tag reply count)) .done

def react (l : TaggedListener) (argument : String) : TaggedReaction :=
  .update (·.note (.called l.tag argument)) <|
    l.thenDisconnect <| l.thenConnect <| l.thenEmit argument

theorem react_emitsOnly {kind : String → Prop} (l : TaggedListener) (argument : String)
    (h : isMarked argument = false → ∀ reply, kind (marked reply)) :
    (l.react argument).EmitsOnly kind := by
  have hemit : (l.thenEmit argument).EmitsOnly kind := by
    unfold thenEmit
    split
    · trivial
    · split
      · trivial
      · rename_i hmark
        exact ⟨h (by simpa using hmark) _, fun _ => trivial⟩
  have hconnect : (l.thenConnect (l.thenEmit argument)).EmitsOnly kind := by
    unfold thenConnect
    split
    · exact hemit
    · exact fun _ => hemit
  show (l.thenDisconnect _).EmitsOnly kind
  unfold thenDisconnect
  split
  · exact hconnect
  · intro book
    dsimp only
    split
    · exact fun _ => hconnect
    · exact hconnect

end TaggedListener

structure Exchange where
  signal : Signal TaggedListener := ∅
  book : TagBook := {}

namespace Exchange

def connect (x : Exchange) (listener : TaggedListener) : Exchange :=
  { signal := x.signal.connect listener
    book := x.book.remember listener.tag x.signal.nextId }

def disconnect (x : Exchange) (tag : String) : Bool × Exchange :=
  match x.book.lookup? tag with
  | some id => (x.signal.isLive id, { x with signal := x.signal.disconnect id })
  | none => (false, x)

theorem isSome_emit (stage : Stage TagBook TaggedListener) (argument : String) :
    (Stage.emit TaggedListener.react 2 stage argument).isSome :=
  Stage.isSome_emit_two (isMarked · = true)
    (fun l argument => l.react_emitsOnly argument fun _ => isMarked_marked)
    (fun l argument hmarked => l.react_emitsOnly argument fun h => by simp [hmarked] at h)
    stage argument

/-- The number of connections called, the log of the calls in order, and what the signal has
become. -/
def emit (x : Exchange) (argument : String) : Nat × List CallEntry × Exchange :=
  let stage : Stage TagBook TaggedListener :=
    { signal := x.signal, shared := { x.book with log := [] } }
  let (calls, stage) :=
    (Stage.emit TaggedListener.react 2 stage argument).get (isSome_emit stage argument)
  (calls.length, stage.shared.log.reverse, { signal := stage.signal, book := stage.shared })

end Exchange

end DashboardFilters
