import LogLift.Proofs.Source.Spans
import LogLift.Proofs.Text.Utf8

/-! The grammar of spans.  A group is a parenthesis, items and the parenthesis that closes it; an
item is a group, a string or a byte that is none of `(`, `)` and `"`.  The scan of a text ends
exactly where a group of its bytes ends, and of the groups that start at a byte there is at most
one.  The grammar is one of bytes, as offsets are: in a string a backslash takes one byte with it,
which may be the first of a longer character. -/

namespace LogLift.Source

open LogLift.Text

/-! ### Groups -/

/-- What stands between the quotes of a string: a backslash takes the next byte with it. -/
inductive StringBody : List UInt8 → Prop
  | nil : StringBody []
  | byte {b : UInt8} {bs : List UInt8} : b ≠ '"'.toUInt8 → b ≠ '\\'.toUInt8 → StringBody bs →
      StringBody (b :: bs)
  | escape {b : UInt8} {bs : List UInt8} : StringBody bs → StringBody ('\\'.toUInt8 :: b :: bs)

/-- Any number of items, one after the other. -/
inductive Items : List UInt8 → Prop
  | nil : Items []
  | byte {b : UInt8} {bs : List UInt8} : b ≠ '('.toUInt8 → b ≠ ')'.toUInt8 → b ≠ '"'.toUInt8 →
      Items bs → Items (b :: bs)
  | string {body bs : List UInt8} : StringBody body → Items bs →
      Items ('"'.toUInt8 :: (body ++ '"'.toUInt8 :: bs))
  | group {items bs : List UInt8} : Items items → Items bs →
      Items ('('.toUInt8 :: (items ++ ')'.toUInt8 :: bs))

/-- Items in parentheses. -/
def Group (bs : List UInt8) : Prop :=
  ∃ items, Items items ∧ bs = '('.toUInt8 :: (items ++ [')'.toUInt8])

/-- The bytes from `opening` up to `stop` are a group. -/
def GroupAt (bytes : List UInt8) (opening stop : Nat) : Prop :=
  ∃ group, Group group ∧ group <+: bytes.drop opening ∧ opening + group.length = stop

/-! ### What ends a scan -/

/-- Items and a closing parenthesis, `depth` times. -/
def Closings : (depth : Nat) → List UInt8 → Prop
  | 0, bs => bs = []
  | depth + 1, bs =>
    ∃ items rest, Items items ∧ Closings depth rest ∧ bs = items ++ ')'.toUInt8 :: rest

namespace SpanState

/-- Read in state `s`, the bytes end what is open, and nothing is left of them. -/
def Completes (s : SpanState) (bs : List UInt8) : Prop :=
  match s.mode with
  | .code => Closings s.depth bs
  | .string => ∃ body rest, StringBody body ∧ Closings s.depth rest ∧
      bs = body ++ '"'.toUInt8 :: rest
  | .escaped => ∃ b body rest, StringBody body ∧ Closings s.depth rest ∧
      bs = b :: (body ++ '"'.toUInt8 :: rest)

/-- The state after one byte. -/
def byteStep (s : SpanState) (b : UInt8) : SpanState :=
  match s.mode with
  | .escaped => { s with mode := .string }
  | .string =>
    if b = '\\'.toUInt8 then { s with mode := .escaped }
    else if b = '"'.toUInt8 then { s with mode := .code }
    else s
  | .code =>
    if b = '"'.toUInt8 then { s with mode := .string }
    else if b = '('.toUInt8 then { s with depth := s.depth + 1 }
    else if b = ')'.toUInt8 then { s with depth := s.depth - 1 }
    else s

end SpanState

section Bytes

variable {depth : Nat} {b : UInt8} {bs : List UInt8}

theorem closings_open : Closings (depth + 1) ('('.toUInt8 :: bs) ↔ Closings (depth + 2) bs := by
  constructor
  · rintro ⟨items, rest, hitems, hrest, heq⟩
    cases hitems with
    | nil => exact absurd (List.cons.inj heq).1 (by decide)
    | byte hopen => exact absurd (List.cons.inj heq).1.symm hopen
    | string => exact absurd (List.cons.inj heq).1 (by decide)
    | @group inner items hinner hitems =>
      refine ⟨inner, items ++ ')'.toUInt8 :: rest, hinner, ⟨items, rest, hitems, hrest, rfl⟩, ?_⟩
      simpa using heq
  · rintro ⟨inner, _, hinner, ⟨items, rest, hitems, hrest, rfl⟩, rfl⟩
    exact ⟨_, rest, .group hinner hitems, hrest, by simp⟩

theorem closings_close : Closings (depth + 1) (')'.toUInt8 :: bs) ↔ Closings depth bs := by
  constructor
  · rintro ⟨items, rest, hitems, hrest, heq⟩
    cases hitems with
    | nil => rwa [(List.cons.inj heq).2]
    | byte _ hclose => exact absurd (List.cons.inj heq).1.symm hclose
    | string => exact absurd (List.cons.inj heq).1 (by decide)
    | group => exact absurd (List.cons.inj heq).1 (by decide)
  · exact fun h => ⟨[], bs, .nil, h, rfl⟩

theorem closings_quote :
    Closings (depth + 1) ('"'.toUInt8 :: bs) ↔
      ∃ body rest, StringBody body ∧ Closings (depth + 1) rest ∧
        bs = body ++ '"'.toUInt8 :: rest := by
  constructor
  · rintro ⟨items, rest, hitems, hrest, heq⟩
    cases hitems with
    | nil => exact absurd (List.cons.inj heq).1 (by decide)
    | byte _ _ hquote => exact absurd (List.cons.inj heq).1.symm hquote
    | @string body items hbody hitems =>
      refine ⟨body, items ++ ')'.toUInt8 :: rest, hbody, ⟨items, rest, hitems, hrest, rfl⟩, ?_⟩
      simpa using heq
    | group => exact absurd (List.cons.inj heq).1 (by decide)
  · rintro ⟨body, _, hbody, ⟨items, rest, hitems, hrest, rfl⟩, rfl⟩
    exact ⟨_, rest, .string hbody hitems, hrest, by simp⟩

theorem closings_byte (hopen : b ≠ '('.toUInt8) (hclose : b ≠ ')'.toUInt8)
    (hquote : b ≠ '"'.toUInt8) : Closings (depth + 1) (b :: bs) ↔ Closings (depth + 1) bs := by
  constructor
  · rintro ⟨items, rest, hitems, hrest, heq⟩
    cases hitems with
    | nil => exact absurd (List.cons.inj heq).1 hclose
    | @byte _ items _ _ _ hitems => exact ⟨items, rest, hitems, hrest, (List.cons.inj heq).2⟩
    | string => exact absurd (List.cons.inj heq).1 hquote
    | group => exact absurd (List.cons.inj heq).1 hopen
  · rintro ⟨items, rest, hitems, hrest, rfl⟩
    exact ⟨b :: items, rest, .byte hopen hclose hquote hitems, hrest, rfl⟩

theorem close_mem_of_closings (h : Closings (depth + 1) bs) : ')'.toUInt8 ∈ bs := by
  obtain ⟨items, rest, _, _, rfl⟩ := h
  simp

end Bytes

namespace SpanState

variable {s : SpanState} {b : UInt8} {bs : List UInt8}

/-- The grammar, byte by byte. -/
theorem completes_cons (hopen : 0 < s.depth) :
    s.Completes (b :: bs) ↔ (s.byteStep b).Completes bs := by
  obtain ⟨_ | depth, mode⟩ := s
  · exact absurd hopen (Nat.lt_irrefl 0)
  cases mode with
  | code =>
    simp only [byteStep]
    split_ifs with hquote hparen hclose
    · subst hquote
      exact closings_quote
    · subst hparen
      exact closings_open
    · subst hclose
      exact closings_close
    · exact closings_byte hparen hclose hquote
  | string =>
    simp only [byteStep]
    split_ifs with hslash hquote
    · subst hslash
      constructor
      · rintro ⟨body, rest, hbody, hrest, heq⟩
        cases hbody with
        | nil => exact absurd (List.cons.inj heq).1 (by decide)
        | byte _ hslash => exact absurd (List.cons.inj heq).1.symm hslash
        | @escape b body hbody => exact ⟨b, body, rest, hbody, hrest, (List.cons.inj heq).2⟩
      · rintro ⟨b, body, rest, hbody, hrest, rfl⟩
        exact ⟨_, rest, .escape hbody, hrest, rfl⟩
    · subst hquote
      constructor
      · rintro ⟨body, rest, hbody, hrest, heq⟩
        cases hbody with
        | nil => rwa [(List.cons.inj heq).2]
        | byte hquote => exact absurd (List.cons.inj heq).1.symm hquote
        | escape => exact absurd (List.cons.inj heq).1 (by decide)
      · exact fun h => ⟨[], bs, .nil, h, rfl⟩
    · constructor
      · rintro ⟨body, rest, hbody, hrest, heq⟩
        cases hbody with
        | nil => exact absurd (List.cons.inj heq).1 hquote
        | @byte _ body _ _ hbody => exact ⟨body, rest, hbody, hrest, (List.cons.inj heq).2⟩
        | escape => exact absurd (List.cons.inj heq).1 hslash
      · rintro ⟨body, rest, hbody, hrest, rfl⟩
        exact ⟨b :: body, rest, .byte hquote hslash hbody, hrest, rfl⟩
  | escaped =>
    constructor
    · rintro ⟨_, body, rest, hbody, hrest, heq⟩
      exact ⟨body, rest, hbody, hrest, (List.cons.inj heq).2⟩
    · rintro ⟨body, rest, hbody, hrest, rfl⟩
      exact ⟨b, body, rest, hbody, hrest, rfl⟩

theorem close_mem_of_completes (hopen : 0 < s.depth) (h : s.Completes bs) : ')'.toUInt8 ∈ bs := by
  obtain ⟨_ | depth, mode⟩ := s
  · exact absurd hopen (Nat.lt_irrefl 0)
  cases mode with
  | code => exact close_mem_of_closings h
  | string =>
    obtain ⟨body, rest, _, hrest, rfl⟩ := h
    simp [close_mem_of_closings hrest]
  | escaped =>
    obtain ⟨b, body, rest, _, hrest, rfl⟩ := h
    simp [close_mem_of_closings hrest]

/-! ### Bytes and characters -/

/-- The state after a byte or a character that is no delimiter and no backslash. -/
def settled (s : SpanState) : SpanState :=
  { s with mode := if s.mode = .escaped then .string else s.mode }

theorem settled_settled (s : SpanState) : s.settled.settled = s.settled := by
  obtain ⟨depth, mode⟩ := s
  cases mode <;> rfl

theorem byteStep_of_le (s : SpanState) (h : 128 ≤ b.toNat) : s.byteStep b = s.settled := by
  have hne : ∀ d : Char, d.toNat < 128 → b ≠ d.toUInt8 := fun d hd => ne_toUInt8_of_le h hd
  obtain ⟨depth, mode⟩ := s
  cases mode with
  | code => simp [byteStep, settled, hne '"' (by decide), hne '(' (by decide), hne ')' (by decide)]
  | string => simp [byteStep, settled, hne '"' (by decide), hne '\\' (by decide)]
  | escaped => rfl

theorem step_of_le (s : SpanState) {c : Char} (h : 128 ≤ c.toNat) : s.step c = s.settled := by
  have hne : ∀ d : Char, d.toNat < 128 → c ≠ d := by
    rintro d hd rfl
    omega
  obtain ⟨depth, mode⟩ := s
  cases mode with
  | code => simp [step, settled, hne '"' (by decide), hne '(' (by decide), hne ')' (by decide)]
  | string => simp [step, settled, hne '"' (by decide), hne '\\' (by decide)]
  | escaped => rfl

theorem byteStep_toUInt8 (s : SpanState) {c : Char} (h : c.toNat < 128) :
    s.byteStep c.toUInt8 = s.step c := by
  have heq : ∀ d : Char, d.toNat < 128 → (c.toUInt8 = d.toUInt8 ↔ c = d) :=
    fun d hd => toUInt8_eq_iff h hd
  obtain ⟨depth, mode⟩ := s
  cases mode with
  | code =>
    simp only [byteStep, step, heq '"' (by decide), heq '(' (by decide), heq ')' (by decide)]
  | string => simp only [byteStep, step, heq '"' (by decide), heq '\\' (by decide)]
  | escaped => rfl

theorem completes_append_of_le (hopen : 0 < s.depth) {front : List UInt8} (hne : front ≠ [])
    (hle : ∀ b ∈ front, 128 ≤ b.toNat) : s.Completes (front ++ bs) ↔ s.settled.Completes bs := by
  induction front generalizing s with
  | nil => exact absurd rfl hne
  | cons b front ih =>
    obtain ⟨hb, hfront⟩ := List.forall_mem_cons.1 hle
    rw [List.cons_append, completes_cons hopen, byteStep_of_le s hb]
    by_cases hnil : front = []
    · rw [hnil, List.nil_append]
    · rw [ih (s := s.settled) hopen hnil hfront, settled_settled]

/-- One character does as its bytes do. -/
theorem completes_utf8EncodeChar (hopen : 0 < s.depth) (c : Char) :
    s.Completes (String.utf8EncodeChar c ++ bs) ↔ (s.step c).Completes bs := by
  by_cases hc : c.toNat < 128
  · rw [utf8EncodeChar_of_lt hc, List.singleton_append, completes_cons hopen, byteStep_toUInt8 s hc]
  · have hle := Nat.le_of_not_lt hc
    rw [completes_append_of_le hopen String.utf8EncodeChar_ne_nil
      fun b hb => le_of_mem_utf8EncodeChar hle hb, step_of_le s hle]

/-- What ends a scan does not end inside a character. -/
theorem exists_append_of_completes (hopen : 0 < s.depth) (h : s.Completes bs) {c : Char}
    {tail : List UInt8} (hpre : bs <+: String.utf8EncodeChar c ++ tail) :
    ∃ rest, bs = String.utf8EncodeChar c ++ rest ∧ rest <+: tail := by
  have hclose := close_mem_of_completes hopen h
  obtain ⟨more, heq⟩ := hpre
  obtain ⟨m, hm, hmore⟩ | ⟨m, rfl, hrest⟩ := List.append_eq_append_iff.1 heq
  · by_cases hc : c.toNat < 128
    · -- the one byte of the character is all there is of it
      rw [utf8EncodeChar_of_lt hc] at hm ⊢
      obtain ⟨b, bs, rfl⟩ := List.exists_cons_of_ne_nil (List.ne_nil_of_mem hclose)
      obtain ⟨rfl, hnil⟩ := List.cons.inj hm
      obtain ⟨rfl, rfl⟩ := List.append_eq_nil_iff.1 hnil.symm
      exact ⟨[], rfl, List.nil_prefix⟩
    · have hmem : ')'.toUInt8 ∈ String.utf8EncodeChar c := by
        rw [hm]
        exact List.mem_append_left m hclose
      have hle := le_of_mem_utf8EncodeChar (Nat.le_of_not_lt hc) hmem
      exact absurd hle (by decide)
  · exact ⟨m, rfl, more, hrest.symm⟩

theorem step_of_closes {c : Char} (h : s.closes c = true) : s.step c = ⟨0, .code⟩ := by
  obtain ⟨depth, mode⟩ := s
  simp only [closes, Bool.and_eq_true, beq_iff_eq] at h
  obtain ⟨⟨rfl, rfl⟩, hdepth⟩ := h
  exact congrArg (SpanState.mk · .code) hdepth

end SpanState

open SpanState in
/-- What a scan has read at its end is what the grammar asks for. -/
theorem completes_of_spanFrom? {s : SpanState} {cs span rest : List Char} (hopen : 0 < s.depth)
    (h : spanFrom? s cs = some (span, rest)) : s.Completes (utf8 span) := by
  induction cs generalizing s span with
  | nil => simp [spanFrom?] at h
  | cons c cs ih =>
    rw [spanFrom?] at h
    cases hcloses : s.closes c with
    | true =>
      simp only [hcloses, if_true, Option.some.injEq, Prod.mk.injEq] at h
      rw [← h.1, utf8_cons, completes_utf8EncodeChar hopen, step_of_closes hcloses]
      rfl
    | false =>
      simp only [hcloses, Bool.false_eq_true, if_false] at h
      obtain ⟨⟨span, rest⟩, hp, hq⟩ := Option.map_eq_some_iff.1 h
      obtain ⟨rfl, rfl⟩ := Prod.mk.inj hq
      rw [utf8_cons, completes_utf8EncodeChar hopen]
      exact ih (depth_step_pos hopen hcloses) hp

open SpanState in
/-- Where the grammar is met, the scan ends. -/
theorem exists_spanFrom?_of_completes {s : SpanState} {cs : List Char} {bs : List UInt8}
    (hopen : 0 < s.depth) (h : s.Completes bs) (hpre : bs <+: utf8 cs) :
    ∃ span rest, spanFrom? s cs = some (span, rest) ∧ utf8 span = bs := by
  induction cs generalizing s bs with
  | nil =>
    obtain rfl := List.prefix_nil.1 hpre
    exact absurd (close_mem_of_completes hopen h) List.not_mem_nil
  | cons c cs ih =>
    obtain ⟨bs, rfl, hrest⟩ := exists_append_of_completes hopen h hpre
    rw [completes_utf8EncodeChar hopen] at h
    rw [spanFrom?]
    cases hcloses : s.closes c with
    | true =>
      rw [step_of_closes hcloses] at h
      obtain rfl : bs = [] := h
      exact ⟨[c], cs, rfl, rfl⟩
    | false =>
      obtain ⟨span, rest, hspan, rfl⟩ := ih (depth_step_pos hopen hcloses) h hrest
      exact ⟨c :: span, rest, by simp [hspan], rfl⟩

/-! ### Scans and groups -/

theorem exists_cons_of_group {bs : List UInt8} (h : Group bs) :
    ∃ rest, bs = '('.toUInt8 :: rest ∧ Closings 1 rest := by
  obtain ⟨items, hitems, rfl⟩ := h
  exact ⟨_, rfl, items, [], hitems, rfl, rfl⟩

theorem group_of_closings {bs : List UInt8} (h : Closings 1 bs) : Group ('('.toUInt8 :: bs) := by
  obtain ⟨items, _, hitems, rfl, rfl⟩ := h
  exact ⟨items, hitems, rfl⟩

theorem span?_cons (rest : List Char) :
    span? ('(' :: rest) = (spanFrom? ⟨1, .code⟩ rest).map fun p => ('(' :: p.1, p.2) := rfl

theorem utf8_paren_cons (cs : List Char) : utf8 ('(' :: cs) = '('.toUInt8 :: utf8 cs := rfl

/-- The groups at a parenthesis are the spans from it. -/
theorem groupAt_append_iff {front rest : List Char} {stop : Nat} :
    GroupAt (utf8 (front ++ '(' :: rest)) (byteLength front) stop ↔
      ∃ span after, span? ('(' :: rest) = some (span, after) ∧
        byteLength front + byteLength span = stop := by
  rw [GroupAt, drop_utf8_append, utf8_paren_cons, span?_cons]
  constructor
  · rintro ⟨group, hgroup, hpre, rfl⟩
    obtain ⟨bs, rfl, hclosings⟩ := exists_cons_of_group hgroup
    obtain ⟨span, after, hspan, rfl⟩ := exists_spanFrom?_of_completes (s := ⟨1, .code⟩)
      Nat.one_pos hclosings (List.cons_prefix_cons.1 hpre).2
    refine ⟨'(' :: span, after, by rw [hspan, Option.map_some], ?_⟩
    rw [← utf8_paren_cons, length_utf8]
  · rintro ⟨_, after, hmap, rfl⟩
    obtain ⟨⟨span, _⟩, hspan, hcons⟩ := Option.map_eq_some_iff.1 hmap
    obtain ⟨rfl, rfl⟩ := Prod.mk.inj hcons
    have hcloses : Closings 1 (utf8 span) :=
      completes_of_spanFrom? (s := ⟨1, .code⟩) Nat.one_pos hspan
    refine ⟨'('.toUInt8 :: utf8 span, group_of_closings hcloses, ?_, ?_⟩
    · rw [spanFrom?_append hspan, utf8_append, List.cons_prefix_cons]
      exact ⟨rfl, List.prefix_append _ _⟩
    · rw [← utf8_paren_cons, length_utf8]

section Scan

variable {source source' : List Char} {start start' opening opening' stop stop' : Nat}

theorem GroupAt.getElem?_eq {bytes : List UInt8} (h : GroupAt bytes opening stop) :
    bytes[opening]? = some '('.toUInt8 := by
  obtain ⟨group, hgroup, ⟨more, hmore⟩, _⟩ := h
  obtain ⟨rest, rfl, _⟩ := exists_cons_of_group hgroup
  rw [← List.head?_drop, ← hmore]
  rfl

theorem spanEnd_eq_notAnOpening_iff :
    spanEnd source start opening = .error (.notAnOpening opening) ↔
      (utf8 source)[opening]? ≠ some '('.toUInt8 := by
  constructor
  · intro h hparen
    obtain ⟨front, rest, rfl, rfl⟩ := exists_append_of_getElem? (by decide) hparen
    rw [spanEnd_append] at h
    split at h <;> simp at h
  · intro h
    unfold spanEnd
    split
    · rename_i front rest hsplit
      obtain ⟨rfl, rfl⟩ := splitAtByte?_eq_some_iff.1 hsplit
      exact absurd (getElem?_utf8_append (by decide) front rest) h
    · rfl

theorem spanEnd_eq_ok_iff_groupAt :
    spanEnd source start opening = .ok stop ↔ GroupAt (utf8 source) opening stop := by
  by_cases hparen : (utf8 source)[opening]? = some '('.toUInt8
  · obtain ⟨front, rest, rfl, rfl⟩ := exists_append_of_getElem? (by decide) hparen
    rw [groupAt_append_iff, spanEnd_append]
    rcases span? ('(' :: rest) with _ | ⟨span, after⟩ <;> simp
  · rw [spanEnd_eq_notAnOpening_iff.2 hparen]
    simp only [reduceCtorEq, false_iff]
    exact fun h => hparen h.getElem?_eq

theorem spanEnd_eq_unterminated_iff :
    spanEnd source start opening = .error (.unterminated start opening) ↔
      (utf8 source)[opening]? = some '('.toUInt8 ∧ ∀ stop, ¬GroupAt (utf8 source) opening stop := by
  by_cases hparen : (utf8 source)[opening]? = some '('.toUInt8
  · obtain ⟨front, rest, rfl, rfl⟩ := exists_append_of_getElem? (by decide) hparen
    simp only [hparen, true_and, groupAt_append_iff, spanEnd_append]
    rcases span? ('(' :: rest) with _ | ⟨span, after⟩ <;> simp
  · rw [spanEnd_eq_notAnOpening_iff.2 hparen]
    simp [hparen]

theorem GroupAt.unique (h : GroupAt (utf8 source) opening stop)
    (h' : GroupAt (utf8 source) opening stop') : stop = stop' := by
  have hscan : spanEnd source opening opening = .ok stop := spanEnd_eq_ok_iff_groupAt.2 h
  have hscan' : spanEnd source opening opening = .ok stop' := spanEnd_eq_ok_iff_groupAt.2 h'
  exact Except.ok.inj (hscan.symm.trans hscan')

/-- The answer of a scan from byte `opening`, told of a call at `start'` with its parenthesis at
`opening'`. -/
def movedAnswer (start' opening opening' : Nat) : Except SpanError Nat → Except SpanError Nat
  | .ok stop => .ok (opening' + (stop - opening))
  | .error (.unterminated _ _) => .error (.unterminated start' opening')
  | .error (.notAnOpening _) => .error (.notAnOpening opening')

theorem GroupAt.moved {bytes bytes' : List UInt8} (h : GroupAt bytes opening stop)
    (hpre : (bytes.drop opening).take (stop - opening) <+: bytes'.drop opening') :
    GroupAt bytes' opening' (opening' + (stop - opening)) := by
  obtain ⟨group, hgroup, ⟨more, hmore⟩, rfl⟩ := h
  rw [← hmore, Nat.add_sub_cancel_left, List.take_left] at hpre
  exact ⟨group, hgroup, hpre, by rw [Nat.add_sub_cancel_left]⟩

/-- A scan looks at nothing before the parenthesis it starts from. -/
theorem spanEnd_of_drop_eq (h : (utf8 source').drop opening' = (utf8 source).drop opening) :
    spanEnd source' start' opening' =
      movedAnswer start' opening opening' (spanEnd source start opening) := by
  have hhead : (utf8 source')[opening']? = (utf8 source)[opening]? := by
    rw [← List.head?_drop, ← List.head?_drop, h]
  by_cases hparen : (utf8 source)[opening]? = some '('.toUInt8
  · by_cases hstop : ∃ stop, GroupAt (utf8 source) opening stop
    · obtain ⟨stop, hgroup⟩ := hstop
      rw [spanEnd_eq_ok_iff_groupAt.2 hgroup, movedAnswer, spanEnd_eq_ok_iff_groupAt]
      exact hgroup.moved (by rw [h]; exact List.take_prefix _ _)
    · have hnone : ∀ stop, ¬GroupAt (utf8 source') opening' stop := by
        intro stop hgroup
        have hback : GroupAt (utf8 source) opening (opening + (stop - opening')) :=
          hgroup.moved (by rw [h]; exact List.take_prefix _ _)
        exact hstop ⟨_, hback⟩
      rw [spanEnd_eq_unterminated_iff.2 ⟨hparen, not_exists.1 hstop⟩, movedAnswer]
      exact spanEnd_eq_unterminated_iff.2 ⟨hhead.trans hparen, hnone⟩
  · rw [spanEnd_eq_notAnOpening_iff.2 hparen, movedAnswer]
    exact spanEnd_eq_notAnOpening_iff.2 (by rwa [hhead])

/-- What a scan has read before a parenthesis that closes one leaves one open: the count never
goes below zero. -/
theorem depth_pos_before_close {read rest cs : List Char} (hcut : read ++ ')' :: rest = '(' :: cs)
    (h : span? read = none) : 0 < (SpanState.initial.after read).depth := by
  cases read with
  | nil => exact absurd (List.cons.inj hcut).1 (by decide)
  | cons c read =>
    obtain ⟨rfl, _⟩ := List.cons.inj hcut
    rw [span?_cons, Option.map_eq_none_iff] at h
    show 0 < (SpanState.after ⟨1, .code⟩ read).depth
    exact depth_after_pos Nat.one_pos h

end Scan

/-- How the scan of a text from byte `opening` on answers the grammar. -/
structure AnswersGrammar (source : List Char) (start opening : Nat) : Prop where
  /-- It refuses to start exactly where there is no opening parenthesis. -/
  refused : spanEnd source start opening = .error (.notAnOpening opening) ↔
    (utf8 source)[opening]? ≠ some '('.toUInt8
  /-- It ends exactly where a group ends. -/
  ended : ∀ stop, spanEnd source start opening = .ok stop ↔ GroupAt (utf8 source) opening stop
  /-- It runs into the end of the text exactly where no group ends. -/
  unterminated : spanEnd source start opening = .error (.unterminated start opening) ↔
    (utf8 source)[opening]? = some '('.toUInt8 ∧ ∀ stop, ¬GroupAt (utf8 source) opening stop
  /-- At most one group starts at a byte. -/
  unique : ∀ stop stop', GroupAt (utf8 source) opening stop → GroupAt (utf8 source) opening stop' →
    stop = stop'
  /-- Another text that is the same from its opening on gets the same answer. -/
  before : ∀ source' start' opening', (utf8 source').drop opening' = (utf8 source).drop opening →
    spanEnd source' start' opening' =
      movedAnswer start' opening opening' (spanEnd source start opening)
  /-- Another text that has the same group at its opening gets the same end. -/
  after : ∀ stop source' start' opening', spanEnd source start opening = .ok stop →
    ((utf8 source).drop opening).take (stop - opening) <+: (utf8 source').drop opening' →
    spanEnd source' start' opening' = .ok (opening' + (stop - opening))
  /-- A parenthesis that closes one is read only while one is open. -/
  counted : ∀ front read rest, source = front ++ (read ++ ')' :: rest) →
    byteLength front = opening → (utf8 source)[opening]? = some '('.toUInt8 → span? read = none →
    0 < (SpanState.initial.after read).depth

/-- The scan for the end of a span accepts exactly the groups of the grammar. -/
theorem spanEnd_answersGrammar (source : List Char) (start opening : Nat) :
    AnswersGrammar source start opening where
  refused := spanEnd_eq_notAnOpening_iff
  ended _ := spanEnd_eq_ok_iff_groupAt
  unterminated := spanEnd_eq_unterminated_iff
  unique _ _ h h' := h.unique h'
  before _ _ _ h := spanEnd_of_drop_eq h
  after _ _ _ _ h hpre := spanEnd_eq_ok_iff_groupAt.2 ((spanEnd_eq_ok_iff_groupAt.1 h).moved hpre)
  counted front read rest hsource hlen hparen hspan := by
    obtain ⟨a, cs, hcut, hopening⟩ := exists_append_of_getElem? (by decide) hparen
    rw [hsource] at hcut
    exact depth_pos_before_close (append_inj_of_byteLength hcut (by omega)).2 hspan

/-- In the string a backslash takes the first byte of a longer character, then a quote; outside of
it a backslash takes nothing.  The one group that starts at the first parenthesis ends before the
last three bytes, and inside of the longer character no group starts. -/
theorem spanEnd_answersGrammar_escapes :
    let source := "p!(\"\\é)\\\"\", (\\)) x)".toList
    spanEnd source 0 2 = .ok 17 ∧ GroupAt (utf8 source) 2 17 ∧
      (∀ stop, GroupAt (utf8 source) 2 stop → stop = 17) ∧
      spanEnd source 0 6 = .error (.notAnOpening 6) ∧ (utf8 source)[6]? ≠ some '('.toUInt8 := by
  intro source
  have hended : spanEnd source 0 2 = .ok 17 := by decide +kernel
  have hrefused : spanEnd source 0 6 = .error (.notAnOpening 6) := by decide +kernel
  have hgroup := ((spanEnd_answersGrammar source 0 2).ended 17).1 hended
  refine ⟨hended, hgroup, fun stop h => ?_, hrefused, ?_⟩
  · exact (spanEnd_answersGrammar source 0 2).unique stop 17 h hgroup
  · exact (spanEnd_answersGrammar source 0 6).refused.1 hrefused

end LogLift.Source
