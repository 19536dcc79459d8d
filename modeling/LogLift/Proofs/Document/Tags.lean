import LogLift.Proofs.Document.CallImage
import LogLift.Proofs.Message.Quotes

/-! The tag of a message.  A message starts with at most one tag, and that tag is what it loses with
the blanks after it.  What is lost has no quote, no backslash and no brace in it: the message keeps
its placeholders, and what was the whole body of a literal is one still. -/

namespace LogLift.Message

open LogLift.Text

/-! ### Taking a tag off -/

section

variable {text tag blanks rest : List Char}

theorem trimLeft_append (hblank : ∀ c ∈ blanks, isBlank c = true)
    (hrest : ∀ c, rest.head? = some c → isBlank c = false) : trimLeft (blanks ++ rest) = rest := by
  cases rest with
  | nil => simpa [trimLeft] using hblank
  | cons c rest => exact Source.trimLeft_blanks_append hblank (hrest c rfl)

/-- The bracket that ends a tag stands nowhere in the tag. -/
theorem Tagged.close_not_mem (h : Tagged text tag blanks rest) : ']' ∉ tag := by
  intro hmem
  exact absurd (isTagChar_iff.2 (h.tag_char ']' hmem)) (by decide)

theorem Tagged.unique {tag' blanks' rest' : List Char} (h : Tagged text tag blanks rest)
    (h' : Tagged text tag' blanks' rest') : tag' = tag ∧ blanks' = blanks ∧ rest' = rest := by
  have hcut := (List.cons.inj (h'.text_eq.symm.trans h.text_eq)).2
  obtain ⟨rfl, hlater⟩ := append_cons_inj_of_not_mem h'.close_not_mem h.close_not_mem hcut
  have hrest := congrArg trimLeft hlater
  rw [trimLeft_append h'.blank h'.rest_start, trimLeft_append h.blank h.rest_start] at hrest
  subst hrest
  exact ⟨rfl, List.append_cancel_right hlater, rfl⟩

theorem Tagged.stripTag_eq (h : Tagged text tag blanks rest) : stripTag text = rest := by
  have hchars : ∀ c ∈ tag, isTagChar c = true := fun c hc => isTagChar_iff.2 (h.tag_char c hc)
  have hclose : ¬isTagChar ']' = true := by decide
  have htake : (tag ++ ']' :: (blanks ++ rest)).takeWhile isTagChar = tag := by
    rw [List.takeWhile_append_of_pos hchars, List.takeWhile_cons_of_neg hclose, List.append_nil]
  have hdrop : (tag ++ ']' :: (blanks ++ rest)).dropWhile isTagChar = ']' :: (blanks ++ rest) := by
    rw [List.dropWhile_append_of_pos hchars, List.dropWhile_cons_of_neg hclose]
  obtain ⟨c, more, rfl⟩ := List.exists_cons_of_ne_nil h.tag_ne_nil
  rw [h.text_eq, stripTag, htake, hdrop]
  exact trimLeft_append h.blank h.rest_start

theorem stripTag_eq_self (h : ¬∃ tag blanks rest, Tagged text tag blanks rest) :
    stripTag text = text :=
  (tagged_stripTag_or text).resolve_left fun ⟨tag, blanks, htagged⟩ => h ⟨tag, blanks, _, htagged⟩

theorem not_brace_of_mem_tagOf {c : Char} (hc : c ∈ tagOf text) : c ≠ '{' ∧ c ≠ '}' := by
  have htag := isTag_tagOf fun hstrip => by
    rw [tagOf_eq_nil_iff.2 hstrip] at hc
    simp at hc
  constructor
  · rintro rfl
    exact htag.not_mem (by decide) (by decide) (by decide) hc
  · rintro rfl
    exact htag.not_mem (by decide) (by decide) (by decide) hc

end

/-! ### Placeholders -/

/-- The placeholders of a format, each without its braces.  A doubled brace stands for a brace.  `held`
is what was read of a placeholder that is open, the last character first. -/
def placeholdersFrom : (held : Option (List Char)) → List Char → List (List Char)
  | _, [] => []
  | none, '{' :: '{' :: cs => placeholdersFrom none cs
  | none, '{' :: cs => placeholdersFrom (some []) cs
  | none, _ :: cs => placeholdersFrom none cs
  | some held, '}' :: cs => held.reverse :: placeholdersFrom none cs
  | some held, c :: cs => placeholdersFrom (some (c :: held)) cs

def placeholders (format : List Char) : List (List Char) := placeholdersFrom none format

theorem placeholders_append {plain : List Char} (hplain : '{' ∉ plain) (cs : List Char) :
    placeholders (plain ++ cs) = placeholders cs := by
  induction plain with
  | nil => rfl
  | cons c plain ih =>
    obtain ⟨hopen, hrest⟩ := not_or.1 (mt List.mem_cons.2 hplain)
    rw [List.cons_append, placeholders, placeholdersFrom]
    · exact ih hrest
    · exact fun _ hc _ => hopen hc.symm
    · exact fun hc => hopen hc.symm

/-- `value` gives the format that the body of a literal stands for: what comes before the first
escape stands for itself. -/
def KeepsPlain (value : List Char → List Char) : Prop :=
  ∀ plain rest, '\\' ∉ plain → value (plain ++ rest) = plain ++ value rest

/-- Whatever the escapes of a message stand for, it keeps its placeholders. -/
theorem placeholders_stripTag {value : List Char → List Char} (hvalue : KeepsPlain value)
    (text : List Char) : placeholders (value (stripTag text)) = placeholders (value text) := by
  have hslash : '\\' ∉ tagOf text := fun hmem => (plain_tagOf text _ hmem).2 rfl
  have hbrace : '{' ∉ tagOf text := fun hmem => (not_brace_of_mem_tagOf hmem).1 rfl
  conv_rhs => rw [← tagOf_append_stripTag text]
  rw [hvalue _ _ hslash, placeholders_append hbrace]

/-! ### Bodies of literals -/

/-- The text is all that stands between the quotes of a literal: no quote in it ends the literal, and
no backslash takes the closing quote. -/
structure IsBody (cs : List Char) : Prop where
  escaped : AllEscaped cs
  closed : endsEscaped cs = false

theorem isBody_append_iff {plain : List Char} (hplain : ∀ c ∈ plain, c ≠ '"' ∧ c ≠ '\\')
    (cs : List Char) : IsBody (plain ++ cs) ↔ IsBody cs := by
  induction plain with
  | nil => rfl
  | cons c plain ih =>
    obtain ⟨⟨hquote, hslash⟩, hrest⟩ := List.forall_mem_cons.1 hplain
    rw [← ih hrest]
    constructor
    · rintro ⟨hall, hend⟩
      exact ⟨(allEscaped_cons hquote hslash).1 hall, by rwa [← endsEscaped_cons hslash]⟩
    · rintro ⟨hall, hend⟩
      exact ⟨(allEscaped_cons hquote hslash).2 hall, by
        rwa [List.cons_append, endsEscaped_cons hslash]⟩

theorem isBody_stripTag_iff {text : List Char} : IsBody (stripTag text) ↔ IsBody text := by
  rw [← isBody_append_iff (plain_tagOf text), tagOf_append_stripTag]

end LogLift.Message

namespace LogLift.Document

open LogLift.Text LogLift.Message

theorem message_eq_getD (body : List Char) :
    message body = ((firstLiteral? body).map (·.inner)).getD [] := by
  rw [message]
  cases firstLiteral? body <;> rfl

theorem message_append {front : List Char} (hfront : '"' ∉ front) (body : List Char) :
    message (front ++ body) = message body := by
  rw [message, message, firstLiteral?_append hfront]
  cases firstLiteral? body <;> rfl

theorem message_untagged (body : List Char) : message (untagged body) = stripTag (message body) := by
  rw [message_eq_getD, message_eq_getD, firstLiteral?_untagged]
  cases firstLiteral? body <;> rfl

/-- The message of a lifted call is the one of the call without its tag. -/
theorem message_image (rules : Rules) (keywords : Keywords) (body : List Char) :
    message ((Piece.call body).image rules keywords) =
      stripTag (message ((Piece.call body).source rules)) := by
  rw [Piece.image_call, Piece.source_call, message_append (quote_not_mem_replacement rules _),
    message_append (quote_not_mem_callHead rules), message_untagged]

/-- A message has one tag at most, which it loses with the blanks after it, and a message without a
tag is left as it is.  What is lost holds no quote, backslash or brace: the placeholders stay, also
those of a lifted call, and so does the whole body of a literal. -/
theorem stripTag_by_grammar (text : List Char) :
    (∀ tag blanks rest, Tagged text tag blanks rest → stripTag text = rest ∧
      ∀ tag' blanks' rest', Tagged text tag' blanks' rest' →
        tag' = tag ∧ blanks' = blanks ∧ rest' = rest) ∧
    ((¬∃ tag blanks rest, Tagged text tag blanks rest) → stripTag text = text) ∧
    (∃ lost, text = lost ++ stripTag text ∧
      ∀ c ∈ lost, c ≠ '"' ∧ c ≠ '\\' ∧ c ≠ '{' ∧ c ≠ '}') ∧
    (∀ value, KeepsPlain value → placeholders (value (stripTag text)) = placeholders (value text)) ∧
    (∀ value rules keywords body, KeepsPlain value →
      placeholders (value (message ((Piece.call body).image rules keywords))) =
        placeholders (value (message ((Piece.call body).source rules)))) ∧
    (IsBody text → IsBody (stripTag text)) := by
  refine ⟨fun tag blanks rest h => ⟨h.stripTag_eq, fun _ _ _ h' => h.unique h'⟩, stripTag_eq_self,
    ⟨tagOf text, (tagOf_append_stripTag text).symm, fun c hc => ?_⟩,
    fun value hvalue => placeholders_stripTag hvalue text,
    fun value rules keywords body hvalue => ?_, isBody_stripTag_iff.2⟩
  · obtain ⟨hquote, hslash⟩ := plain_tagOf text c hc
    exact ⟨hquote, hslash, not_brace_of_mem_tagOf hc⟩
  · rw [message_image, placeholders_stripTag hvalue]

/-- A tag with blanks in it and after it, before placeholders and doubled braces; brackets without a
tag; and a tag before an escaped quote. -/
theorem stripTag_by_grammar_blanks :
    let tagged := "[日 志-1]\u3000 \x7b0\x7d \x7b\x7bx\x7d\x7d \x7by:?\x7d".toList
    let rest := "\x7b0\x7d \x7b\x7bx\x7d\x7d \x7by:?\x7d".toList
    let quoted := "[a]\\\"b".toList
    (Tagged tagged "日 志-1".toList "\u3000 ".toList rest ∧ stripTag tagged = rest ∧ KeepsPlain id ∧
      placeholders tagged = ["0".toList, "y:?".toList]) ∧
    ((¬∃ tag blanks rest, Tagged "[] x".toList tag blanks rest) ∧
      stripTag "[] x".toList = "[] x".toList) ∧
    IsBody quoted ∧ IsBody (stripTag quoted) := by
  intro tagged rest quoted
  have htagged : Tagged tagged "日 志-1".toList "\u3000 ".toList rest := by
    have htag : "日 志-1".toList.all isTagChar = true := by decide +kernel
    have hblanks : "\u3000 ".toList.all isBlank = true := by decide +kernel
    refine ⟨by decide +kernel, by decide +kernel,
      fun c hc => isTagChar_iff.1 (List.all_eq_true.1 htag c hc), List.all_eq_true.1 hblanks, ?_⟩
    rintro c hc
    obtain rfl : '{' = c := Option.some.inj hc
    decide
  have hid : KeepsPlain id := fun _ _ _ => rfl
  have huntagged : ¬∃ tag blanks rest, Tagged "[] x".toList tag blanks rest := by
    rintro ⟨tag, blanks, rest, h⟩
    obtain ⟨c, more, rfl⟩ := List.exists_cons_of_ne_nil h.tag_ne_nil
    obtain rfl : ']' = c := (List.cons.inj (List.cons.inj h.text_eq).2).1
    exact h.close_not_mem List.mem_cons_self
  have hquoted : IsBody quoted := by
    obtain ⟨hall, hend⟩ := escapes_of_literalBody?
      (show literalBody? (quoted ++ ['"']) = some (quoted, []) by decide +kernel)
    exact ⟨hall, hend⟩
  obtain ⟨hstrip, _, _, hplaceholders, _⟩ := stripTag_by_grammar tagged
  have hrest := (hstrip _ _ _ htagged).1
  refine ⟨⟨htagged, hrest, hid, ?_⟩, ⟨huntagged, (stripTag_by_grammar _).2.1 huntagged⟩, hquoted,
    (stripTag_by_grammar quoted).2.2.2.2.2 hquoted⟩
  have hkept := hplaceholders id hid
  rw [hrest] at hkept
  exact hkept.symm.trans (by decide +kernel)

end LogLift.Document
