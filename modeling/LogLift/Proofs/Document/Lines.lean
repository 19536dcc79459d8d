import LogLift.Proofs.Document.Slicing

/-! The lines that lifted calls are reported on.  The loop counts line feeds only when it lifts a call,
and only from the last lifted call on: calls in comments and in the test region, and whatever spans
several lines, are counted later.  Every state that it comes to knows the line of the byte that it
counts on from, and of every call that it has lifted. -/

namespace LogLift.Document

open LogLift.Text LogLift.Source LogLift.Message

/-- Byte `offset` of `source` begins a character or is the end, and it is on line `line`: one more
than the line feeds among the bytes before it. -/
structure OnLine (source : List Char) (offset line : Nat) : Prop where
  boundary : Boundary source offset
  line_eq : line = 1 + ((utf8 source).take offset).count '\n'.toUInt8

theorem onLine_append (front rest : List Char) :
    OnLine (front ++ rest) (byteLength front) (1 + lineFeeds front) where
  boundary := ⟨front, rest, rfl, rfl⟩
  line_eq := by
    rw [take_utf8_append, count_utf8 (by decide)]
    rfl

/-- A state of the loop has its lines right. -/
structure KnowsLines (source : List Char) (p : Progress) : Prop where
  linePos_le : p.linePos ≤ p.cursor
  line : OnLine source p.linePos p.line
  calls : ∀ call ∈ p.calls, OnLine source call.offset call.line

/-- The turn lifts no call, or one, which starts where the loop counts on from. -/
def LiftsAtMostOne (p : Progress) : Turn → Prop
  | .onward q => q.calls = p.calls ∨
      ∃ call, q.calls = p.calls ++ [call] ∧ call.offset = q.linePos ∧ call.line = q.line
  | .finished _ calls => calls = p.calls
  | .failed _ => True

section

variable {rules : Rules} {keywords : Keywords} {source : List Char} {p : Progress}

theorem liftsAtMostOne_of_callTurn? {start stop : Nat} {turn : Turn}
    (h : callTurn? rules keywords source p start stop = some turn) : LiftsAtMostOne p turn := by
  simp only [callTurn?, Option.bind_eq_bind, Option.bind_eq_some_iff] at h
  obtain ⟨call, _, copied, _, h⟩ := h
  split at h
  · obtain rfl := Option.some.inj h
    exact .inl rfl
  · simp only [Option.bind_eq_some_iff] at h
    obtain ⟨between, _, ⟨image, level, tagStripped⟩, _, h⟩ := h
    obtain rfl := Option.some.inj h
    exact .inr ⟨_, rfl, rfl, rfl⟩

theorem liftsAtMostOne_of_turn? {turn : Turn} (h : turn? rules keywords source p = some turn) :
    LiftsAtMostOne p turn := by
  simp only [turn?, Option.bind_eq_bind, Option.bind_eq_some_iff] at h
  obtain ⟨found, _, h⟩ := h
  cases found with
  | none =>
    obtain ⟨rest, _, h⟩ := Option.bind_eq_some_iff.1 h
    obtain rfl := Option.some.inj h
    exact rfl
  | some token =>
    obtain ⟨inComment, _, h⟩ := Option.bind_eq_some_iff.1 h
    split at h
    · obtain ⟨copied, _, h⟩ := Option.bind_eq_some_iff.1 h
      obtain rfl := Option.some.inj h
      exact .inl rfl
    · split at h
      · obtain rfl := Option.some.inj h
        trivial
      · exact liftsAtMostOne_of_callTurn? h

theorem Follows.onLine {before after : List Char}
    (h : Follows rules keywords source p before after) : OnLine source p.linePos p.line := by
  obtain ⟨front, middle, hcut, hpos, hline⟩ := h.line
  rw [h.source_eq, hcut, List.append_assoc, ← hpos, hline]
  exact onLine_append front (middle ++ after)

/-- A turn keeps the lines right. -/
theorem KnowsLines.onward {q : Progress} {before after : List Char} (h : KnowsLines source p)
    (hfollows : Follows rules keywords source q before after)
    (hturn : turn? rules keywords source p = some (.onward q)) : KnowsLines source q where
  linePos_le := hfollows.cursor_bounds.1
  line := hfollows.onLine
  calls := by
    rcases liftsAtMostOne_of_turn? hturn with hcalls | ⟨call, hcalls, hoffset, hline⟩
    · rw [hcalls]
      exact h.calls
    · rw [hcalls, List.forall_mem_append, List.forall_mem_singleton, hoffset, hline]
      exact ⟨h.calls, hfollows.onLine⟩

theorem Reached.knowsLines (h : Reached rules keywords source p) : KnowsLines source p := by
  induction h with
  | refl => exact ⟨Nat.le_refl 0, onLine_append [] source, by simp [Progress.start]⟩
  | @tail p q hreached hturn ih =>
    obtain ⟨before, after, hfollows⟩ := Reached.follows (hreached.tail hturn)
    exact ih.onward hfollows hturn

/-- The loop has the lines right in every state that it comes to, also in a text that fails later,
and every lifted call is on the line that it is reported on. -/
theorem lifted_calls_onLine (rules : Rules) (keywords : Keywords) (source : List Char) :
    (∀ p, Reached rules keywords source p → KnowsLines source p) ∧
      ∀ r, lift rules keywords source = .ok r →
        ∀ call ∈ r.calls, OnLine source call.offset call.line := by
  refine ⟨fun p hreached => hreached.knowsLines, fun r hlift => ?_⟩
  -- the calls of the lifting are those of the loop's last state
  obtain ⟨p, hreached, hend⟩ :=
    Reached.exists_concludes (.refl : Reached rules keywords source .start)
  rw [Concludes, hlift] at hend
  rw [show r.calls = p.calls from liftsAtMostOne_of_turn? hend]
  exact hreached.knowsLines.calls

end

/-- A commented call, a call with a literal of two lines, and one after it. -/
theorem lifted_calls_onLine_multiline :
    let source := "// println!(é\n1);\nprintln!(\n\"é\n[A] x\");\nprintln!(3);".toList
    lift .default .default source =
      .ok ⟨"// println!(é\n1);\nlog::debug!(\n\"é\n[A] x\");\nlog::debug!(3);".toList,
        [⟨19, 3, .debug, false⟩, ⟨42, 6, .debug, false⟩]⟩ ∧
    OnLine source 19 3 ∧ OnLine source 42 6 := by
  intro source
  have h : lift .default .default source =
      .ok ⟨"// println!(é\n1);\nlog::debug!(\n\"é\n[A] x\");\nlog::debug!(3);".toList,
        [⟨19, 3, .debug, false⟩, ⟨42, 6, .debug, false⟩]⟩ :=
    lift_eq_ok_iff.2 ⟨by decide +kernel, by decide +kernel⟩
  have hlines := (lifted_calls_onLine .default .default source).2 _ h
  exact ⟨h, hlines ⟨19, 3, .debug, false⟩ (by simp), hlines ⟨42, 6, .debug, false⟩ (by simp)⟩

end LogLift.Document
