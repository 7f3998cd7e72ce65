/-
What a parameterized message says. Its pattern is read as pieces with
placeholders between them (`Pieces`): each piece ends at the leftmost
placeholder of what is left of the pattern, so placeholders are taken from
left to right and never overlap, and the last piece holds none. Every
pattern can be read so, in one way (`exists_pieces`, `Pieces.unique`).

The text is then the pieces joined by the params, and by placeholders once
there are no more params (`joined`, `fillPlaceholders_eq_joined`). A param
goes into the text as it is: it is the pattern that is cut, never the text.
-/
import LogPipeline.Message

namespace LogPipeline

/-- An opening brace with the closing one right after it. -/
def placeholder : List Char := ['{', '}']

-- ============================================================== pieces

/-- A pattern, cut at its placeholders from left to right. -/
inductive Pieces : List Char → List (List Char) → Prop
  | last {cs : List Char} : ¬ placeholder <:+: cs → Pieces cs [cs]
  /-- No placeholder begins before the one where the piece ends. -/
  | cut {cs piece rest : List Char} {pieces : List (List Char)} :
      cs = piece ++ placeholder ++ rest →
      (∀ before after, cs = before ++ placeholder ++ after → piece.length ≤ before.length) →
      Pieces rest pieces → Pieces cs (piece :: pieces)

section

variable {c : Char} {cs piece rest : List Char} {pieces pieces' params : List (List Char)}

/-- A text has no placeholder if none begins it and none is in the rest. -/
theorem not_placeholder_infix_cons_iff :
    ¬ placeholder <:+: c :: cs ↔ ¬ placeholder <+: c :: cs ∧ ¬ placeholder <:+: cs := by
  rw [List.infix_cons_iff, not_or]

theorem Pieces.ne_nil (h : Pieces cs pieces) : pieces ≠ [] := by
  cases h <;> exact List.cons_ne_nil _ _

/-- There is only one way to cut a pattern. -/
theorem Pieces.unique (h : Pieces cs pieces) (h' : Pieces cs pieces') : pieces' = pieces := by
  induction h generalizing pieces' with
  | last hnone =>
      cases h' with
      | last => rfl
      | cut hcs => exact absurd ⟨_, _, hcs.symm⟩ hnone
  | @cut cs piece rest pieces hcs hfirst hrest ih =>
      cases h' with
      | last hnone => exact absurd ⟨_, _, hcs.symm⟩ hnone
      | @cut _ piece' rest' pieces' hcs' hfirst' hrest' =>
          have hlength : piece'.length = piece.length :=
            Nat.le_antisymm (hfirst' _ _ hcs) (hfirst _ _ hcs')
          rw [hcs', List.append_assoc, List.append_assoc] at hcs
          obtain ⟨rfl, htails⟩ := List.append_inj hcs hlength
          obtain rfl := List.append_cancel_left htails
          rw [ih hrest']

/-- A character at which no placeholder begins belongs to the first piece. -/
theorem Pieces.cons (hc : ¬ placeholder <+: c :: cs) (h : Pieces cs (piece :: pieces)) :
    Pieces (c :: cs) ((c :: piece) :: pieces) := by
  cases h with
  | last hnone => exact .last (not_placeholder_infix_cons_iff.2 ⟨hc, hnone⟩)
  | @cut _ _ rest _ hcs hfirst hrest =>
      refine .cut (congrArg (c :: ·) hcs) (fun before after hbefore => ?_) hrest
      cases before with
      | nil => exact absurd ⟨after, hbefore.symm⟩ hc
      | cons d before => exact Nat.succ_le_succ (hfirst before after (List.cons.inj hbefore).2)

/-- Every pattern can be cut. -/
theorem exists_pieces : ∀ cs : List Char, ∃ pieces, Pieces cs pieces
  | [] => ⟨[[]], .last (by decide)⟩
  | c :: cs => by
      by_cases hc : placeholder <+: c :: cs
      · obtain ⟨rest, hrest⟩ := hc
        have hshorter : rest.length < cs.length + 1 := by
          have := congrArg List.length hrest
          simp only [placeholder, List.length_append, List.length_cons, List.length_nil] at this
          omega
        obtain ⟨pieces, hpieces⟩ := exists_pieces rest
        exact ⟨[] :: pieces, .cut hrest.symm (fun _ _ _ => Nat.zero_le _) hpieces⟩
      · obtain ⟨pieces, hpieces⟩ := exists_pieces cs
        obtain ⟨piece, pieces, rfl⟩ := List.exists_cons_of_ne_nil hpieces.ne_nil
        exact ⟨_, hpieces.cons hc⟩
termination_by cs => cs.length

-- ============================================================= joining

/-- The pieces in order. What stands between two of them is the param whose
turn it is, or a placeholder if there are not so many. -/
def joined (params : List (List Char)) : List (List Char) → List Char
  | [] => []
  | piece :: pieces =>
    piece ++ (pieces.mapIdx fun i next => params.getD i placeholder ++ next).flatten

theorem joined_cons (params : List (List Char)) (piece : List Char) (h : pieces ≠ []) :
    joined params (piece :: pieces)
      = piece ++ params.getD 0 placeholder ++ joined params.tail pieces := by
  obtain ⟨next, pieces, rfl⟩ := List.exists_cons_of_ne_nil h
  simp only [joined, List.mapIdx_cons, List.flatten_cons, List.append_assoc]
  cases params <;> rfl

/-- Params beyond the last placeholder are not looked at. -/
theorem joined_take (params : List (List Char)) (piece : List Char) :
    joined (params.take pieces.length) (piece :: pieces) = joined params (piece :: pieces) := by
  refine congrArg (piece ++ List.flatten ·) ?_
  refine List.mapIdx_eq_mapIdx_iff.2 fun i hi => ?_
  rw [List.getD_eq_getElem?_getD, List.getD_eq_getElem?_getD, List.getElem?_take_of_lt hi]

-- ============================================================= filling

/-- Without params the pattern stays. -/
theorem fillPlaceholders_nil (cs : List Char) : fillPlaceholders cs [] = cs := by
  induction cs with
  | nil => rfl
  | cons c cs ih => rw [fillPlaceholders, ih]; simp

/-- A character at which no placeholder begins is copied. -/
theorem fillPlaceholders_cons (hc : ¬ placeholder <+: c :: cs) :
    fillPlaceholders (c :: cs) params = c :: fillPlaceholders cs params := by
  refine fillPlaceholders.eq_2 params c cs fun rest _ _ _ hopen hcs => hc ⟨rest, ?_⟩
  rw [hopen, hcs]
  rfl

/-- A placeholder in front takes the first of the params, or stays. -/
theorem fillPlaceholders_placeholder :
    fillPlaceholders (placeholder ++ rest) params
      = params.getD 0 placeholder ++ fillPlaceholders rest params.tail := by
  cases params with
  | nil => exact (fillPlaceholders_nil _).trans (congrArg _ (fillPlaceholders_nil rest).symm)
  | cons p ps => rfl

theorem fillPlaceholders_of_no_placeholder (h : ¬ placeholder <:+: cs) :
    fillPlaceholders cs params = cs := by
  induction cs with
  | nil => rfl
  | cons c cs ih =>
      obtain ⟨hfront, hlater⟩ := not_placeholder_infix_cons_iff.1 h
      rw [fillPlaceholders_cons hfront, ih hlater]

/-- Up to its leftmost placeholder a pattern is copied. -/
theorem fillPlaceholders_cut
    (hfirst : ∀ before after, piece ++ placeholder ++ rest = before ++ placeholder ++ after →
      piece.length ≤ before.length) :
    fillPlaceholders (piece ++ placeholder ++ rest) params
      = piece ++ params.getD 0 placeholder ++ fillPlaceholders rest params.tail := by
  induction piece with
  | nil => exact fillPlaceholders_placeholder
  | cons c piece ih =>
      have hc : ¬ placeholder <+: c :: (piece ++ placeholder ++ rest) :=
        fun ⟨after, hafter⟩ => absurd (hfirst [] after hafter.symm) (Nat.not_succ_le_zero _)
      refine (fillPlaceholders_cons hc).trans (congrArg (c :: ·) (ih fun before after h => ?_))
      exact Nat.le_of_succ_le_succ (hfirst (c :: before) after (congrArg (c :: ·) h))

/-- Filling is joining the pieces with the params in between. -/
theorem fillPlaceholders_eq_joined (h : Pieces cs pieces) :
    fillPlaceholders cs params = joined params pieces := by
  induction h generalizing params with
  | @last cs hnone =>
      rw [fillPlaceholders_of_no_placeholder hnone]
      exact (List.append_nil cs).symm
  | @cut cs piece rest pieces hcs hfirst hrest ih =>
      subst hcs
      rw [fillPlaceholders_cut hfirst, ih, joined_cons params piece hrest.ne_nil]

end

-- ============================================================ messages

/-- A pattern is cut in one way, and the text of a message is the pieces
joined by the params while they last and by placeholders afterwards.
Params for which there is no placeholder are ignored; without params the
text is the pattern. -/
theorem Message.formatted_parameterized (pattern : String) (params : List String) :
    ∃ piece pieces, (∀ cut, Pieces pattern.toList cut ↔ cut = piece :: pieces)
      ∧ (parameterized pattern params).formatted
          = String.ofList (joined (params.map String.toList) (piece :: pieces))
      ∧ (parameterized pattern (params.take pieces.length)).formatted
          = (parameterized pattern params).formatted
      ∧ (parameterized pattern []).formatted = pattern := by
  obtain ⟨pieces, hpieces⟩ := exists_pieces pattern.toList
  obtain ⟨piece, pieces, rfl⟩ := List.exists_cons_of_ne_nil hpieces.ne_nil
  have hformatted (ps : List String) : (parameterized pattern ps).formatted
      = String.ofList (joined (ps.map String.toList) (piece :: pieces)) :=
    congrArg String.ofList (fillPlaceholders_eq_joined hpieces)
  refine ⟨piece, pieces, fun cut => ⟨hpieces.unique, fun h => h ▸ hpieces⟩, hformatted params,
    ?_, ?_⟩
  · rw [hformatted, hformatted, List.map_take, joined_take]
  · exact (congrArg String.ofList (fillPlaceholders_nil _)).trans (String.ofList_toList)

/-- A placeholder among stray braces is found, and one in a param is not
looked for. -/
example : (Message.parameterized "{{}} {}{}" ["{}", "2"]).formatted
    = "{{}} 2{}" := by
  decide +kernel

end LogPipeline
