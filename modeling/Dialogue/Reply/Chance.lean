import Dialogue.Reply.Answer

/-! Replies whose lots fall as if by chance. -/
namespace Dialogue.Chance

/-- Spreads a number over 64 bits, so that numbers close to each other become unlike. -/
def scramble (n : UInt64) : UInt64 :=
  let a := n * 0x9E3779B97F4A7C15
  let b := (a ^^^ (a >>> 30)) * 0xBF58476D1CE4E5B9
  let c := (b ^^^ (b >>> 27)) * 0x94D049BB133111EB
  c ^^^ (c >>> 31)

/-- How many lots of one reply are drawn; in those after them the likeliest outcome wins. -/
def lotsInReply : Nat := 256

def draws (reply : Nat) : List Nat :=
  (List.range lotsInReply).map fun lot =>
    (scramble (UInt64.ofNat (lotsInReply * reply + lot + 1)) >>> 2).toNat

/-- How often each of some users is asked, so that rare outcomes show as well. -/
def attempts (users : List Text) : Nat := max 1 (1000 / users.length)

/-- Asks each of some users in turn, more than once from where the bot stands; only the first
reply changes the bot. -/
def askFrom (attempts : Nat) (message : Text) : (reply : Nat) → List Text → Bot →
    List (Except Fault Exchange) × Bot
  | _, [], b => ([], b)
  | reply, user :: users, b =>
    let outcomes := (List.range attempts).map fun n => b.reply (draws (reply + n)) user message
    let next := (outcomes.head?.map Outcome.bot).getD b
    let (results, b) := askFrom attempts message (reply + attempts) users next
    (outcomes.map Outcome.result ++ results, b)

def ask (b : Bot) (users : List Text) (message : Text) : List (Except Fault Exchange) × Bot :=
  askFrom (attempts users) message 0 users b

end Dialogue.Chance
