import LogLift.Diff.Edit

/-! Tidying a list of edits.  Deletions move past insertions next to them, and insertions move down
over kept lines that they repeat, so that edits of one kind come together. -/

namespace LogLift.Diff

/-- A list of edits with one of them picked out; `before` has the nearest edit first. -/
structure Cursor where
  before : List Edit
  edit : Edit
  after : List Edit

/-- The edits with `fresh` in front, as part of a kept run if one is there. -/
def keepInFront (fresh : Edit) : List Edit → List Edit
  | [] => [fresh]
  | next :: rest =>
    if next.kind = .keep then (next.up fresh.length).longer fresh.length :: rest
    else fresh :: next :: rest

/-- The edits, the nearest first, with `fresh` behind, as part of a kept run if one is there. -/
def keepBehind (fresh : Edit) : List Edit → List Edit
  | [] => [fresh]
  | previous :: rest =>
    if previous.kind = .keep then previous.longer fresh.length :: rest
    else fresh :: previous :: rest

/-- An edit moved up as far as it goes: over kept lines that it repeats, past edits of the other
kind, and into edits of its own. -/
def raise (old new : Lines) (before : List Edit) (edit : Edit) (after : List Edit) : Cursor :=
  match before with
  | [] => ⟨[], edit, after⟩
  | previous :: above =>
    if previous.kind = .keep then
      if _h : previous.length = 0 then raise old new above edit after
      else
        let n := commonBefore old new (previous.old + previous.length)
          (edit.new + edit.newLength) (min previous.length edit.newLength)
        if _hn : n = 0 then ⟨previous :: above, edit, after⟩
        else
          let fresh : Edit :=
            ⟨.keep, previous.old + previous.length - n, edit.new + edit.newLength - n, n⟩
          let after := keepInFront fresh after
          if previous.length ≤ n then raise old new above (edit.up n) after
          else raise old new (previous.shorter n :: above) (edit.up n) after
    else if previous.kind = edit.kind then
      raise old new above (previous.longer edit.length) after
    else raise old new above edit (previous :: after)
termination_by weight before
decreasing_by
  all_goals simp only [weight_cons, Edit.shorter]
  all_goals omega

def lower (old new : Lines) (before : List Edit) (edit : Edit) (after : List Edit) : Cursor :=
  match after with
  | [] => ⟨before, edit, []⟩
  | next :: below =>
    if next.kind = .keep then
      if _h : next.length = 0 then lower old new before edit below
      else
        let n := commonAfter old new next.old edit.new (min next.length edit.newLength)
        if _hn : n = 0 then ⟨before, edit, next :: below⟩
        else
          let before := keepBehind ⟨.keep, next.old, edit.new, n⟩ before
          if next.length ≤ n then lower old new before (edit.down n) below
          else lower old new before (edit.down n) ((next.down n).shorter n :: below)
    else if next.kind = edit.kind then lower old new before (edit.longer next.length) below
    else lower old new (next :: before) edit below
termination_by weight after
decreasing_by
  all_goals simp only [weight_cons, Edit.shorter, Edit.down]
  all_goals omega

def tally (kind : Kind) (edits : List Edit) : Nat := edits.countP (·.kind == kind)

theorem tally_cons (kind : Kind) (e : Edit) (edits : List Edit) :
    tally kind (e :: edits) = tally kind [e] + tally kind edits := by
  simp only [tally, List.countP_cons, List.countP_nil]
  omega

/-- All edits of one kind, moved up and then down, one after the other.  An edit that is moved is
followed by less than before, unless it was taken into another one of its kind. -/
def settle (old new : Lines) (kind : Kind) (before after : List Edit) : List Edit :=
  match after with
  | [] => before.reverse
  | edit :: rest =>
    if edit.kind = kind then
      let raised := raise old new before edit rest
      let settled := lower old new raised.before raised.edit raised.after
      let passed := settled.edit :: settled.before
      let count := tally kind passed + tally kind settled.after
      if _h : count < tally kind before + tally kind (edit :: rest) ∨
          (count = tally kind before + tally kind (edit :: rest) ∧
            weight settled.after < weight (edit :: rest)) then
        settle old new kind passed settled.after
      else before.reverse ++ edit :: rest
    else settle old new kind (edit :: before) rest
termination_by (tally kind before + tally kind after, weight after)
decreasing_by
  · rcases _h with h | ⟨h, h'⟩
    · exact Prod.Lex.left _ _ h
    · rw [show tally kind passed + tally kind settled.after =
        tally kind before + tally kind (edit :: rest) from h]
      exact Prod.Lex.right _ h'
  · have h1 := tally_cons kind edit rest
    have h2 := tally_cons kind edit before
    rw [show tally kind (edit :: before) + tally kind rest =
      tally kind before + tally kind (edit :: rest) by omega]
    exact Prod.Lex.right _ (by simp only [weight_cons]; omega)

/-- A tidied list of edits: deletions first, then insertions. -/
def tidy (old new : Lines) (edits : List Edit) : List Edit :=
  settle old new .insert [] (settle old new .delete [] edits)

end LogLift.Diff
