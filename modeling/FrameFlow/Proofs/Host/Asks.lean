/-
# Asking by handle

Whatever becomes of a pipeline is asked for by its handle: by the library's own
callers, by foreign callers, and by the methods of a script's objects. What is
asked is kept as data, and so is what is told. The history of a host is what it was
asked, each with what it told. An entry concerns a handle when the handle is named
by what is asked, or issued by what is told.

Key definitions: `Host.Ask`, `Host.Told`, `Host.history`, `Host.Entry.concerns`,
`Host.Told.Alike`, `Host.Entry.Releases`, `Host.Entry.Failed`.
-/
import FrameFlow.Proofs.Foreign.Answers

namespace FrameFlow

/-- The same call by another handle, if it is by a handle at all. -/
def Foreign.Call.aim (k : Handle) : Call → Call
  | release _ => release k
  | addFrame _ stage frame => addFrame k stage frame
  | enqueue _ id update => enqueue k id update
  | enqueueBatched _ batch id update => enqueueBatched k batch id update
  | stageSize _ stage => stageSize k stage
  | delete _ id => delete k id
  | move _ stage ids => move k stage ids
  | pack _ stage ids => pack k stage ids
  | unpack _ stage batch buffer => unpack k stage batch buffer
  | commit _ id => commit k id
  | discard _ id => discard k id
  | getConfidence _ frame id out => getConfidence k frame id out
  | setConfidence _ frame id confidence => setConfidence k frame id confidence
  | getText _ frame id field buffer => getText k frame id field buffer
  | getBox _ frame id out => getBox k frame id out
  | setBox _ frame id box => setBox k frame id box
  | getTrack _ frame id box track => getTrack k frame id box track
  | setTrack _ frame id box track => setTrack k frame id box track
  | clearTrack _ frame id => clearTrack k frame id
  | getVector _ frame id scope name index out => getVector k frame id scope name index out
  | c => c

/-- The method of a name. -/
def Script.method? (name : String) : Option Method := methods.find? fun m => m.name == name

/-- The handle of the first value that is put into a registry. -/
def Handle.first : Handle := ⟨1, 0⟩

namespace Host

/-! ### What is asked and told -/

/-- What a host can be asked for, by a handle or to issue one. -/
inductive Ask where
  /-- The library's own callers build pipelines and operate on them without any text. -/
  | build (c : Config)
  | buildFrom (text : String)
  | setUp (threshold : Threshold) (file : Option String)
  | release (handle : Handle)
  | operate (handle : Handle) (op : Operation)
  /-- The whole pipeline is looked at, so all that can be read of it is told. -/
  | look (handle : Handle)
  | foreign (call : Foreign.Call)
  | method (handle : Handle) (name : String) (arguments : Script.Arguments)

/-- What is told. A foreign call tells what it leaves in memory, too. -/
inductive Told where
  | made (handle : Except Error Handle)
  | nothing
  | flag (yes : Bool)
  | replied (reply : Except Error Reply)
  | shown (pipeline : Except Error Pipeline)
  | foreign (answer : Foreign.Answer) (call : Foreign.Call)
  | script (answer : Except Script.Failure Script.Value)

namespace Ask

/-- What is told, and the host afterwards. -/
def run (h : Host) : Ask → Told × Host
  | build c => (.made (h.create c).1, (h.create c).2)
  | buildFrom text => (.made (h.createFromJson text).1, (h.createFromJson text).2)
  | setUp threshold file => (.nothing, h.setUpLogging threshold file)
  | release k => (.flag (h.release k).1, (h.release k).2)
  | operate k op => (.replied (h.run k op.outcome).1, (h.run k op.outcome).2)
  | look k => (.shown (h.view k id).1, (h.view k id).2)
  | foreign call => (.foreign (call.run h).answer (call.run h).call, (call.run h).host)
  | method k name arguments =>
    match Script.method? name with
    | none => (.script (.error .noSuchName), h)
    | some m => (.script (m.call k arguments h).1, (m.call k arguments h).2)

/-- The handle by which something is asked. -/
def handle? : Ask → Option Handle
  | build _ | buildFrom _ | setUp .. => none
  | release k | operate k _ | look k | method k .. => some k
  | foreign call => call.handle?

/-- The same by another handle. -/
def aim (k : Handle) : Ask → Ask
  | release _ => release k
  | operate _ op => operate k op
  | look _ => look k
  | foreign call => foreign (call.aim k)
  | method _ name arguments => method k name arguments
  | a => a

end Ask

/-- The host after some asking, one after another. -/
def after (h : Host) : List Ask → Host
  | [] => h
  | a :: as => (a.run h).2.after as

/-- What is asked, with what is told. -/
abbrev Entry := Ask × Told

/-- What is told, one after another. -/
def history (h : Host) : List Ask → List Entry
  | [] => []
  | a :: as => (a, (a.run h).1) :: (a.run h).2.history as

theorem after_append (h : Host) : ∀ as bs : List Ask, h.after (as ++ bs) = (h.after as).after bs
  | [], _ => rfl
  | a :: as, bs => after_append (a.run h).2 as bs

/-- The handle whose number is answered, and zero stands for none. -/
def answeredHandle? : Foreign.Answer → Option Handle
  | .natural n => if n = 0 then none else some (.ofNumber n)
  | _ => none

/-- The handle that is issued. A foreign caller gets its number. -/
def Told.issued? : Told → Option Handle
  | made (.ok k) => some k
  | foreign answer (.create _) => answeredHandle? answer
  | _ => none

/-- The handles that are issued, in order. -/
def issued (es : List Entry) : List Handle := es.filterMap fun e => e.2.issued?

/-- Whether something is asked by a handle, or the handle is issued for it. -/
def Entry.concerns (k : Handle) (e : Entry) : Bool :=
  e.1.handle? == some k || e.2.issued? == some k

/-! ### Telling the same -/

/-- The same answer, except that an unknown handle is told by its number. -/
inductive Answered {ε α : Type} (k k' : Handle) (unknown : Nat → ε) :
    Except ε α → Except ε α → Prop where
  | same (x : Except ε α) : Answered k k' unknown x x
  | unknown : Answered k k' unknown (.error (unknown k.number)) (.error (unknown k'.number))

/-- The same is told about one handle as about another one, and the number is that of the handle. -/
inductive Told.Alike (k k' : Handle) : Told → Told → Prop where
  | built : Alike k k' (.made (.ok k)) (.made (.ok k'))
  | created (config : Foreign.TextCell) : Alike k k'
      (.foreign (.natural k.number) (.create config))
      (.foreign (.natural k'.number) (.create config))
  | flag (yes : Bool) : Alike k k' (.flag yes) (.flag yes)
  | replied {x y : Except Error Reply} (same : Answered k k' .unknownHandle x y) :
      Alike k k' (.replied x) (.replied y)
  | shown {x y : Except Error Pipeline} (same : Answered k k' .unknownHandle x y) :
      Alike k k' (.shown x) (.shown y)
  | foreign (answer : Foreign.Answer) {call : Foreign.Call} (about : call.handle? = some k) :
      Alike k k' (.foreign answer call) (.foreign answer (call.aim k'))
  | script {x y : Except Script.Failure Script.Value}
      (same : Answered k k' (fun n => .refused (.unknownHandle n)) x y) :
      Alike k k' (.script x) (.script y)

/-! ### Letting go -/

namespace Entry

/-- A pipeline is let go by its handle, and it was there. -/
def Releases (k : Handle) : Entry → Prop
  | (.release j, told) => j = k ∧ told = .flag true
  | (.foreign (.release j), told) => j = k ∧ told = .foreign (.flag true) (.release j)
  | (.method j name _, told) => j = k ∧ name = "release" ∧ told = .script (.ok (.bool true))
  | _ => False

/-- What is asked by a handle fails: it is refused, or the answer is the one that stands for all
failures, with memory as it was. -/
def Failed : Entry → Prop
  | (.release _, told) => told = .flag false
  | (.operate k _, told) => told = .replied (.error (.unknownHandle k.number))
  | (.look k, told) => told = .shown (.error (.unknownHandle k.number))
  | (.foreign call, told) => told = .foreign call.sentinel call
  | (.method _ name _, told) =>
    (∃ failure, told = .script (.error failure)) ∨
      name = "release" ∧ told = .script (.ok (.bool false))
  | _ => False

end Entry
end Host
end FrameFlow
