import Dialogue.Reply.Markup
import Dialogue.Reply.Variable

/-! Carrying out the markup of a reply. -/
namespace Dialogue

open Text Answering

structure Asking where
  user : Text
  playbook : Playbook

structure Turn where
  depth : Nat := 0
  message : Text := []
  topic : Text := []
  stars : List Text := []
  botStars : List Text := []
  deriving DecidableEq, Repr

/-- Answers a message at a depth; `begin` where it is not the user's, but stands for what is done
before each reply. -/
abbrev Answerer := (depth : Nat) → (begin : Bool) → (message : Text) → Answering Text

namespace Expansion

/-- Replaces what the reader finds, one at a time from the left, and looks again from the
start; at most `limit` times. -/
def editEach {α : Type} (read : Reader α) (f : α → Answering Text) :
    (limit : Nat) → Text → Answering Text
  | 0, t => return t
  | limit + 1, t =>
    match find? read t with
    | none => return t
    | some (before, found, rest) => do
      let new ← f found
      editEach read f limit (before ++ new ++ rest)

/-- Replaces what the reader finds in one go from left to right, after passing over `skip`
characters. What is put in is not read again. -/
def replaceAll {α : Type} (read : Reader α) (f : α → Answering Text) : (skip : Nat) → Text →
    Answering Text
  | _, [] => return []
  | skip + 1, _ :: t => replaceAll read f skip t
  | 0, c :: t =>
    match read (c :: t) with
    | some (found, rest) => do
      let new ← f found
      let after ← replaceAll read f (t.length - rest.length) t
      return new ++ after
    | none => do
      let after ← replaceAll read f 0 t
      return c :: after

def tagLimit : Nat := 1024

def pick (body : Text) : Answering Text := do
  let options := Markup.options body
  let n ← draw (options.map fun _ => 1)
  return options.getD n []

/-- A script inside a reply. Its faults are passed over. -/
def hotLoad (code : Text) : Answering Text := do
  let (_, b) := (← bot).hotLoad code
  changeBot fun _ => b
  return []

def enterTopic (user name : Text) : Answering Text := do
  onRoster (·.setVar user "topic" (some (trim name)))
  return []

def callObject (user body : Text) : Answering Text := do
  let b ← bot
  let (name, args) := CallText.split body
  return (b.callables.call? name user args).getD b.settings.wording.noObject

def formatBlocks (person : Substitution) (limit : Nat) : List Markup.Block → Text → Answering Text
  | [], t => return t
  | block :: blocks, t => do
    let t ← editEach (Markup.readBlock block.name 1)
      (fun body => return block.format person body) limit t
    formatBlocks person limit blocks t

def carryOutTags (user t : Text) : Answering Text := do
  let t ← editEach Markup.readTag (Variable.tag user Markup.park) tagLimit (Markup.hideCalls t)
  return Markup.unpark t

/-- What takes the place of a redirect inside a reply: the answer to its target, one deeper. -/
def redirect (call : Answerer) (turn : Turn) (target : Text) : Answering Text :=
  call (turn.depth + 1) false (lower (trim target))

/-- Carries out the markup of a text. `call` answers what it redirects to. -/
def expand (a : Asking) (call : Answerer) (turn : Turn) (t : Text) : Answering Text := do
  let limit := a.playbook.depth
  let history := (← bot).roster.history a.user
  let t := Markup.prepare a.playbook.arrays turn.stars turn.botStars history a.user t
  let t ← editEach (Markup.readBlock "random" 0) pick limit t
  let t ← editEach Markup.readHotLoad hotLoad limit t
  let t ← formatBlocks a.playbook.person limit Markup.Block.all t
  let t ← carryOutTags a.user t
  let t ← editEach Markup.readTopic (enterTopic a.user) limit t
  let t ← editEach Markup.readRedirect (redirect call turn) limit t
  editEach Markup.readCall (callObject a.user) limit (Markup.showCalls t)

/-- Before a reply, only variables and topics are set. -/
def expandBegin (user t : Text) : Answering Text := do
  let t ← replaceAll Markup.readSet
    (fun (name, value) => do
      onRoster (·.setVar user (trim name) (some (trim value)))
      return []) 0 t
  replaceAll Markup.readTopic (enterTopic user) 0 t

end Expansion

end Dialogue
