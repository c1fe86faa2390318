import Dialogue.Proofs.Process
import Dialogue.Reply.Answer
import Mathlib.Data.List.TakeWhile

/-! Responses and their chances. What is drawn by taking chances away from a number, one response after
the other, is what stands at that place in a list with a lot for every chance, which nobody has to
write down. -/
namespace Dialogue

theorem Weight.ofReply_pos (t : Text) : 0 < ofReply t := Nat.le_max_left _ _

theorem Weight.ofReply_lt (t : Text) : ofReply t < Nat.pow 2 32 := by
  rw [ofReply]
  cases h : (first? t).bind Numeral.weight? with
  | none => decide
  | some n =>
    obtain ⟨digits, -, hn⟩ := Option.bind_eq_some_iff.mp h
    have hbelow : n < Nat.pow 2 32 := of_decide_eq_true (Option.filter_eq_some_iff.mp hn).2
    exact Nat.max_lt.mpr ⟨by decide, hbelow⟩

namespace Lot

variable {chances : List Nat} {n bound : Nat}

@[simp] theorem total_nil : total [] = 0 := rfl

@[simp] theorem total_cons (n : Nat) (chances : List Nat) :
    total (n :: chances) = n + total chances := rfl

theorem total_append (chances chances' : List Nat) :
    total (chances ++ chances') = total chances + total chances' := by
  induction chances with
  | nil => exact (Nat.zero_add _).symm
  | cons n chances ih => rw [List.cons_append, total_cons, total_cons, ih, Nat.add_assoc]

theorem le_total (h : n ∈ chances) : n ≤ total chances := by
  obtain ⟨before, after, rfl⟩ := List.append_of_mem h
  rw [total_append, total_cons]
  omega

theorem total_le (h : ∀ n ∈ chances, n ≤ bound) : total chances ≤ chances.length * bound := by
  induction chances with
  | nil => exact Nat.zero_le _
  | cons n chances ih =>
    rw [List.forall_mem_cons] at h
    have hrest := ih h.2
    have hfirst := h.1
    rw [total_cons, List.length_cons, Nat.succ_mul]
    omega

theorem foldl_max_eq (n : Nat) (chances : List Nat) :
    chances.foldl max n = n ∨ chances.foldl max n ∈ chances := by
  induction chances generalizing n with
  | nil => exact .inl rfl
  | cons m chances ih =>
    rw [List.foldl_cons]
    rcases ih (max n m) with h | h
    · rcases Nat.le_total n m with hle | hle
      · exact .inr (List.mem_cons.mpr (.inl (h.trans (Nat.max_eq_right hle))))
      · exact .inl (h.trans (Nat.max_eq_left hle))
    · exact .inr (List.mem_cons_of_mem _ h)

/-- The likeliest lot is one of them, because it has a chance itself. -/
theorem usual_lt (h : 0 < total chances) : usual chances < total chances := by
  rw [usual]
  generalize hmost : chances.foldl max 0 = most
  have hsplit := total_append (chances.takeWhile (· < most)) (chances.dropWhile (· < most))
  rw [List.takeWhile_append_dropWhile] at hsplit
  rcases Nat.eq_zero_or_pos most with rfl | hpos
  · have hnone : chances.takeWhile (· < 0) = [] := by
      cases chances <;> simp
    rw [hnone]
    exact h
  · have hmem : most ∈ chances := by
      rcases foldl_max_eq 0 chances with hzero | hmem
      · omega
      · exact hmost ▸ hmem
    have hnot : most ∉ chances.takeWhile (· < most) := by
      intro htaken
      simpa using List.mem_takeWhile_imp htaken
    have hleft : most ∈ chances.dropWhile (· < most) := by
      rw [← List.takeWhile_append_dropWhile (p := (· < most)) (l := chances)] at hmem
      exact (List.mem_append.mp hmem).resolve_left hnot
    have hle := le_total hleft
    omega

end Lot

namespace Answering

theorem drawn_lt {chances : List Nat} (h : 0 < Lot.total chances) (draws : List Nat) :
    drawn chances draws < Lot.total chances := by
  cases draws with
  | nil => exact Lot.usual_lt h
  | cons d draws => exact Nat.mod_lt d h

end Answering

/-! ### One lot for every chance -/

namespace Response

def lots (pool : List (Response × Nat)) : List Response :=
  pool.flatMap fun e => List.replicate e.2 e.1

theorem lots_cons (response : Response) (chances : Nat) (pool : List (Response × Nat)) :
    lots ((response, chances) :: pool) = List.replicate chances response ++ lots pool := rfl

theorem length_lots (pool : List (Response × Nat)) :
    (lots pool).length = Lot.total (pool.map Prod.snd) := by
  induction pool with
  | nil => rfl
  | cons e pool ih => rw [lots_cons, List.length_append, List.length_replicate, ih]; rfl

/-- By induction on the responses: those before the first one's last lot are its own, and the others
are counted from there. -/
theorem at?_eq_getElem? (pool : List (Response × Nat)) (n : Nat) : at? pool n = (lots pool)[n]? := by
  induction pool generalizing n with
  | nil => rfl
  | cons e pool ih =>
    obtain ⟨response, chances⟩ := e
    rw [at?, lots_cons]
    by_cases h : n < chances
    · rw [if_pos h, List.getElem?_append_left (by rwa [List.length_replicate]),
        List.getElem?_replicate_of_lt h]
    · rw [if_neg h, ih, List.getElem?_append_right (by rw [List.length_replicate]; omega),
        List.length_replicate]

/-- The lots of a response begin where those of the responses before it end. -/
theorem at?_append (before after : List (Response × Nat)) (response : Response) {chances n : Nat}
    (h : n < chances) :
    at? (before ++ (response, chances) :: after) (Lot.total (before.map Prod.snd) + n) =
      some response := by
  have hsplit : lots (before ++ (response, chances) :: after) =
      lots before ++ (List.replicate chances response ++ lots after) := by
    rw [lots, List.flatMap_append]
    rfl
  rw [at?_eq_getElem?, hsplit, ← length_lots, List.getElem?_append_right (Nat.le_add_right _ _),
    Nat.add_sub_cancel_left, List.getElem?_append_left (by rwa [List.length_replicate]),
    List.getElem?_replicate_of_lt h]

theorem countP_lots (pool : List (Response × Nat)) (response : Response) :
    (lots pool).countP (· = response) =
      Lot.total ((pool.filter fun e => e.1 = response).map Prod.snd) := by
  induction pool with
  | nil => rfl
  | cons e pool ih =>
    rw [lots_cons, List.countP_append, ih, List.countP_replicate]
    by_cases h : e.1 = response
    · rw [List.filter_cons_of_pos (by simpa using h), List.map_cons, Lot.total_cons,
        if_pos (by simpa using h)]
    · rw [List.filter_cons_of_neg (by simpa using h), if_neg (by simpa using h), Nat.zero_add]

end Response

namespace Rule

/-- The redirect as often as it has chances, then each reply as often as it has. -/
def lots (r : Rule) : List Response :=
  (r.redirect.toList.flatMap fun t => List.replicate (Weight.ofReply t) (.redirect t)) ++
    r.replies.flatMap fun t => List.replicate (Weight.ofReply t) (.reply t)

def chances (r : Rule) : Nat := Lot.total (r.responses.map Prod.snd)

variable {r : Rule}

theorem lots_eq (r : Rule) : r.lots = Response.lots r.responses := by
  rw [lots, Response.lots, responses, List.flatMap_append, List.flatMap_map, List.flatMap_map]

theorem length_lots (r : Rule) : r.lots.length = r.chances := by
  rw [lots_eq, Response.length_lots, chances]

theorem at?_eq_lots (r : Rule) (n : Nat) : Response.at? r.responses n = r.lots[n]? := by
  rw [lots_eq, Response.at?_eq_getElem?]

theorem chances_of_mem {e : Response × Nat} (h : e ∈ r.responses) : 0 < e.2 ∧ e.2 < Nat.pow 2 32 := by
  rcases List.mem_append.mp h with h | h
  · obtain ⟨t, -, rfl⟩ := List.mem_map.mp h
    exact ⟨Weight.ofReply_pos t, Weight.ofReply_lt t⟩
  · obtain ⟨t, -, rfl⟩ := List.mem_map.mp h
    exact ⟨Weight.ofReply_pos t, Weight.ofReply_lt t⟩

/-- Every response has a chance, and there are not so many that their chances would not fit. -/
theorem chances_lt (h : r.responses.length < Nat.pow 2 32) : r.chances < Nat.pow 2 64 := by
  have hbound : ∀ n ∈ r.responses.map Prod.snd, n ≤ Nat.pow 2 32 - 1 := by
    intro n hn
    obtain ⟨e, he, rfl⟩ := List.mem_map.mp hn
    have hlt := (chances_of_mem he).2
    omega
  calc r.chances ≤ (r.responses.map Prod.snd).length * (Nat.pow 2 32 - 1) := Lot.total_le hbound
    _ = r.responses.length * (Nat.pow 2 32 - 1) := by rw [List.length_map]
    _ ≤ Nat.pow 2 32 * (Nat.pow 2 32 - 1) := Nat.mul_le_mul_right _ (Nat.le_of_lt h)
    _ < Nat.pow 2 64 := by decide

theorem responses_eq_nil : r.responses = [] ↔ r.redirect = none ∧ r.replies = [] := by
  rw [responses, List.append_eq_nil_iff, List.map_eq_nil_iff, List.map_eq_nil_iff,
    Option.toList_eq_nil_iff]

theorem chances_eq_zero : r.chances = 0 ↔ r.redirect = none ∧ r.replies = [] := by
  rw [← responses_eq_nil]
  constructor
  · intro h
    refine List.eq_nil_iff_forall_not_mem.mpr fun e he => ?_
    have hpos := (chances_of_mem he).1
    have hle : e.2 ≤ r.chances := Lot.le_total (List.mem_map_of_mem he)
    omega
  · intro h
    rw [chances, h]
    rfl

/-- The lots of the redirect come first, and there is one redirect at most. -/
theorem at?_redirect (n : Nat) (target : Text) :
    Response.at? r.responses n = some (.redirect target) ↔
      r.redirect = some target ∧ n < Weight.ofReply target := by
  rw [at?_eq_lots, lots]
  have hreplies : Response.redirect target ∉ r.replies.flatMap fun t =>
      List.replicate (Weight.ofReply t) (Response.reply t) := by
    intro hmem
    obtain ⟨t, -, hmem⟩ := List.mem_flatMap.mp hmem
    cases List.eq_of_mem_replicate hmem
  cases hredirect : r.redirect with
  | none =>
    refine iff_of_false (fun h => hreplies ?_) (fun h => nomatch h.1)
    exact List.mem_of_getElem? h
  | some t =>
    have hfirst : (some t).toList.flatMap (fun t =>
        List.replicate (Weight.ofReply t) (Response.redirect t)) =
          List.replicate (Weight.ofReply t) (Response.redirect t) := by
      simp
    rw [hfirst]
    by_cases hn : n < Weight.ofReply t
    · rw [List.getElem?_append_left (by rwa [List.length_replicate]),
        List.getElem?_replicate_of_lt hn]
      constructor
      · intro h
        cases h
        exact ⟨rfl, hn⟩
      · rintro ⟨h, -⟩
        cases h
        rfl
    · rw [List.getElem?_append_right (by rw [List.length_replicate]; omega)]
      refine iff_of_false (fun h => hreplies (List.mem_of_getElem? h)) ?_
      rintro ⟨h, hlt⟩
      cases h
      exact hn hlt

/-- How many of the draws come to a response. -/
theorem countP_at? (r : Rule) (response : Response) :
    (List.range r.chances).countP (fun n => Response.at? r.responses n = some response) =
      Lot.total ((r.responses.filter fun e => e.1 = response).map Prod.snd) := by
  have hall : (List.range r.chances).map (Response.at? r.responses ·) = r.lots.map some := by
    apply List.ext_getElem?
    intro n
    rw [List.getElem?_map, List.getElem?_map, ← length_lots]
    by_cases hn : n < r.lots.length
    · rw [List.getElem?_range hn, Option.map_some, at?_eq_lots, List.getElem?_eq_getElem hn]
      rfl
    · rw [List.getElem?_eq_none (by simpa using hn), List.getElem?_eq_none (by simpa using hn)]
      rfl
  calc (List.range r.chances).countP (fun n => Response.at? r.responses n = some response)
      = ((List.range r.chances).map (Response.at? r.responses ·)).countP (· = some response) := by
        rw [List.countP_map]
        rfl
    _ = r.lots.countP (· = response) := by
        rw [hall, List.countP_map]
        simp only [Function.comp_def, Option.some.injEq]
    _ = Lot.total ((r.responses.filter fun e => e.1 = response).map Prod.snd) := by
        rw [lots_eq, Response.countP_lots]

end Rule

namespace Answer

open Answering

variable {r : Rule}

theorem run_drawResponse_of_ne (h : r.responses ≠ []) (p : Process) :
    (drawResponse r).run.run p =
      (.ok ((Response.at? r.responses (drawn (r.responses.map Prod.snd) p.draws)).getD (.reply [])),
        { p with draws := p.draws.tail }) := by
  cases hresponses : r.responses with
  | nil => exact absurd hresponses h
  | cons e pool =>
    simp only [drawResponse, hresponses]
    rw [run_bind, run_draw]
    rfl

theorem run_drawResponse_of_nil (h : r.responses = []) (p : Process) :
    (drawResponse r).run.run p = (.ok (.reply []), p) := by
  simp only [drawResponse, h]
  rfl

end Answer

/-! ### The responses of a rule -/

open Answering

/-- A rule with its chances and the lots that stand for them. -/
structure Rule.DrawsByLot (r : Rule) : Prop where
  chances_lt : r.chances < Nat.pow 2 64
  chances_eq_zero : r.chances = 0 ↔ r.redirect = none ∧ r.replies = []
  /-- Whatever is drawn is held by a response, so none is left over behind the last one. -/
  lot : ∀ n < r.chances, ∃ response,
    Response.at? r.responses n = some response ∧ r.lots[n]? = some response
  redirect : ∀ n target, Response.at? r.responses n = some (.redirect target) ↔
    r.redirect = some target ∧ n < Weight.ofReply target
  /-- Each response holds as many lots as it has chances, behind those of the responses before it. -/
  held : ∀ before response chances after, r.responses = before ++ (response, chances) :: after →
    ∀ n < chances, Response.at? r.responses (Lot.total (before.map Prod.snd) + n) = some response
  /-- Responses that say the same share their lots. -/
  share : ∀ response,
    (List.range r.chances).countP (fun n => Response.at? r.responses n = some response) =
      Lot.total ((r.responses.filter fun e => e.1 = response).map Prod.snd)
  answered : r.chances ≠ 0 → ∀ p, ∃ n < r.chances, ∃ response,
    (∀ d draws, p.draws = d :: draws → n = d % r.chances) ∧ r.lots[n]? = some response ∧
      (Answer.drawResponse r).run.run p = (.ok response, { p with draws := p.draws.tail })
  silent : r.chances = 0 → ∀ p, (Answer.drawResponse r).run.run p = (.ok (.reply []), p)

/-- Drawing a response by its chances is drawing one of the lots of the rule. -/
theorem Rule.drawsByLot (r : Rule) (h : r.responses.length < Nat.pow 2 32) : r.DrawsByLot := by
  have hlot : ∀ n < r.chances, ∃ response,
      Response.at? r.responses n = some response ∧ r.lots[n]? = some response := by
    intro n hn
    rw [← length_lots] at hn
    exact ⟨r.lots[n], by rw [at?_eq_lots, List.getElem?_eq_getElem hn], List.getElem?_eq_getElem hn⟩
  refine ⟨chances_lt h, chances_eq_zero, hlot, at?_redirect, ?_, countP_at? r, ?_, ?_⟩
  · intro before response chances after hsplit n hn
    rw [hsplit]
    exact Response.at?_append before after response hn
  · intro hne p
    have hdrawn : drawn (r.responses.map Prod.snd) p.draws < r.chances :=
      drawn_lt (Nat.pos_of_ne_zero hne) p.draws
    obtain ⟨response, hat, hresponse⟩ := hlot _ hdrawn
    have hresponses : r.responses ≠ [] := fun hnil =>
      hne (chances_eq_zero.mpr (responses_eq_nil.mp hnil))
    refine ⟨_, hdrawn, response, ?_, hresponse, ?_⟩
    · intro d draws hdraws
      rw [hdraws]
      rfl
    · rw [Answer.run_drawResponse_of_ne hresponses, hat]
      rfl
  · intro hzero
    exact Answer.run_drawResponse_of_nil (responses_eq_nil.mpr (chances_eq_zero.mp hzero))

/-- A rule whose chances fit in 32 bits one by one, but not all together. -/
def handshake : Rule where
  pattern := "greet"
  replies := ["Hello.\x7bweight=3000000000\x7d", "Hi.", "Hello.\x7bweight=3000000000\x7d"]
  redirect := some "greet back\x7bweight=4000000000\x7d"

theorem handshake_drawsByLot : handshake.responses.length < Nat.pow 2 32 ∧ handshake.DrawsByLot ∧
    handshake.chances = 10000000001 ∧
    Response.at? handshake.responses 3999999999 =
      some (.redirect "greet back\x7bweight=4000000000\x7d") ∧
    Response.at? handshake.responses 7000000000 = some (.reply "Hi.") := by
  have hfew : handshake.responses.length < Nat.pow 2 32 := by decide +kernel
  exact ⟨hfew, handshake.drawsByLot hfew, by decide +kernel, by decide +kernel, by decide +kernel⟩

end Dialogue
