import LogLift.Proofs.Text.Position

/-! The bytes of a text.  A byte below 128 is a whole character, and it is part of no other: where
such a byte stands, the text can be cut. -/

namespace LogLift.Text

/-- The bytes of `cs` in UTF-8. -/
def utf8 (cs : List Char) : List UInt8 := cs.flatMap String.utf8EncodeChar

@[simp] theorem utf8_nil : utf8 [] = [] := rfl

@[simp] theorem utf8_cons (c : Char) (cs : List Char) :
    utf8 (c :: cs) = String.utf8EncodeChar c ++ utf8 cs := rfl

@[simp] theorem utf8_append (a b : List Char) : utf8 (a ++ b) = utf8 a ++ utf8 b :=
  List.flatMap_append

@[simp] theorem length_utf8 (cs : List Char) : (utf8 cs).length = byteLength cs := by
  induction cs with
  | nil => rfl
  | cons c cs ih =>
    rw [utf8_cons, List.length_append, String.length_utf8EncodeChar, ih, byteLength_cons]

theorem toNat_toUInt8 {c : Char} (h : c.toNat < 128) : c.toUInt8.toNat = c.toNat := by
  show c.toNat % 256 = c.toNat
  omega

theorem toUInt8_eq_iff {c d : Char} (hc : c.toNat < 128) (hd : d.toNat < 128) :
    c.toUInt8 = d.toUInt8 ↔ c = d := by
  constructor
  · intro h
    have hnat := congrArg UInt8.toNat h
    rw [toNat_toUInt8 hc, toNat_toUInt8 hd] at hnat
    exact Char.toNat_inj.1 hnat
  · rintro rfl
    rfl

theorem utf8EncodeChar_of_lt {c : Char} (h : c.toNat < 128) :
    String.utf8EncodeChar c = [c.toUInt8] := by
  apply String.utf8EncodeChar_eq_singleton
  rw [Char.utf8Size_eq_one_iff, UInt32.le_iff_toNat_le]
  exact Nat.le_of_lt_succ h

theorem le_of_mem_utf8EncodeChar {c : Char} (h : 128 ≤ c.toNat) {b : UInt8}
    (hb : b ∈ String.utf8EncodeChar c) : 128 ≤ b.toNat := by
  have hc : ¬c.val.toNat ≤ 127 := by
    show ¬c.toNat ≤ 127
    omega
  simp only [String.utf8EncodeChar, hc, if_false] at hb
  split_ifs at hb <;>
    simp only [List.mem_cons, List.not_mem_nil, or_false] at hb <;>
    rcases hb with rfl | rfl | rfl | rfl <;>
    simp only [UInt8.toNat_ofNat'] <;>
    omega

theorem ne_toUInt8_of_le {b : UInt8} {d : Char} (hb : 128 ≤ b.toNat) (hd : d.toNat < 128) :
    b ≠ d.toUInt8 := by
  rintro rfl
  rw [toNat_toUInt8 hd] at hb
  omega

theorem take_utf8_append (a b : List Char) : (utf8 (a ++ b)).take (byteLength a) = utf8 a := by
  rw [utf8_append, ← length_utf8, List.take_left]

theorem drop_utf8_append (a b : List Char) : (utf8 (a ++ b)).drop (byteLength a) = utf8 b := by
  rw [utf8_append, ← length_utf8, List.drop_left]

/-- No byte of a character is that of another one below 128. -/
theorem toUInt8_not_mem_utf8EncodeChar {c d : Char} (hd : d.toNat < 128) (hne : c ≠ d) :
    d.toUInt8 ∉ String.utf8EncodeChar c := by
  intro hmem
  by_cases hc : c.toNat < 128
  · rw [utf8EncodeChar_of_lt hc, List.mem_singleton] at hmem
    exact hne ((toUInt8_eq_iff hc hd).1 hmem.symm)
  · exact ne_toUInt8_of_le (le_of_mem_utf8EncodeChar (Nat.le_of_not_lt hc) hmem) hd rfl

/-- The bytes of a character tell which it is and where it ends. -/
theorem utf8EncodeChar_append_inj {c d : Char} {a b : List UInt8}
    (h : String.utf8EncodeChar c ++ a = String.utf8EncodeChar d ++ b) : c = d ∧ a = b := by
  have hbytes := congrArg List.toByteArray h
  rw [List.toByteArray_append, List.toByteArray_append] at hbytes
  have hdecoded := congrArg (ByteArray.utf8DecodeChar? · 0) hbytes
  simp only [ByteArray.utf8DecodeChar?_utf8EncodeChar_append] at hdecoded
  obtain rfl := Option.some.inj hdecoded
  exact ⟨rfl, List.append_cancel_left h⟩

/-- A text stands at the start of another where its bytes do. -/
theorem utf8_prefix_iff {text cs : List Char} : utf8 text <+: utf8 cs ↔ text <+: cs := by
  constructor
  · intro h
    induction text generalizing cs with
    | nil => exact List.nil_prefix
    | cons d text ih =>
      obtain ⟨rest, heq⟩ := h
      cases cs with
      | nil => simp [String.utf8EncodeChar_ne_nil] at heq
      | cons c cs =>
        rw [utf8_cons, utf8_cons, List.append_assoc] at heq
        obtain ⟨rfl, htail⟩ := utf8EncodeChar_append_inj heq
        exact List.cons_prefix_cons.2 ⟨rfl, ih ⟨rest, htail⟩⟩
  · rintro ⟨rest, rfl⟩
    rw [utf8_append]
    exact List.prefix_append _ _

/-- No character starts inside another one. -/
theorem eq_nil_or_of_utf8EncodeChar {c d : Char} {front inside a b : List UInt8}
    (hc : String.utf8EncodeChar c = front ++ inside)
    (hd : String.utf8EncodeChar d ++ a = inside ++ b) : front = [] ∨ inside = [] := by
  cases inside with
  | nil => exact .inr rfl
  | cons byte inside =>
    obtain ⟨first, more, hbytes⟩ :=
      List.exists_cons_of_ne_nil (String.utf8EncodeChar_ne_nil (c := d))
    have hfirst := UInt8.isUTF8FirstByte_getElem_zero_utf8EncodeChar (c := d)
    rw [hbytes] at hd
    obtain ⟨rfl, _⟩ := List.cons.inj hd
    simp only [hbytes, List.getElem_cons_zero] at hfirst
    have hlt : front.length < (String.utf8EncodeChar c).length := by simp [hc]
    have hindex : (String.utf8EncodeChar c)[front.length] = first := by simp [hc]
    rw [← hindex, UInt8.isUTF8FirstByte_getElem_utf8EncodeChar, List.length_eq_zero_iff] at hfirst
    exact .inl hfirst

/-- A text stands somewhere in another exactly where its bytes do. -/
theorem utf8_infix_iff {word text : List Char} : utf8 word <:+: utf8 text ↔ word <:+: text := by
  constructor
  · intro h
    cases word with
    | nil => exact List.nil_infix
    | cons d word =>
      induction text with
      | nil => simp [String.utf8EncodeChar_ne_nil] at h
      | cons c cs ih =>
        obtain ⟨front, back, heq⟩ := h
        rw [utf8_cons c, List.append_assoc] at heq
        rw [List.infix_cons_iff]
        obtain ⟨inside, hchar, hrest⟩ | ⟨later, rfl, hrest⟩ := List.append_eq_append_iff.1 heq
        · have hstart : String.utf8EncodeChar d ++ (utf8 word ++ back) = inside ++ utf8 cs := by
            rw [← hrest, utf8_cons, List.append_assoc]
          rcases eq_nil_or_of_utf8EncodeChar hchar hstart with rfl | rfl
          · rw [List.nil_append] at hchar
            exact .inl (utf8_prefix_iff.1 ⟨back, by rw [hrest, utf8_cons, hchar]⟩)
          · exact .inr (ih ⟨[], back, hrest⟩)
        · exact .inr (ih ⟨later, back, by rw [hrest, List.append_assoc]⟩)
  · rintro ⟨front, back, rfl⟩
    rw [utf8_append, utf8_append]
    exact ⟨utf8 front, utf8 back, rfl⟩

theorem getElem?_utf8_append {d : Char} (hd : d.toNat < 128) (a cs : List Char) :
    (utf8 (a ++ d :: cs))[byteLength a]? = some d.toUInt8 := by
  rw [← List.head?_drop, drop_utf8_append, utf8_cons, utf8EncodeChar_of_lt hd]
  rfl

/-- Where the byte of a character below 128 stands, the character stands. -/
theorem exists_append_of_getElem? {source : List Char} {offset : Nat} {d : Char}
    (hd : d.toNat < 128) (h : (utf8 source)[offset]? = some d.toUInt8) :
    ∃ a cs, source = a ++ d :: cs ∧ byteLength a = offset := by
  induction source generalizing offset with
  | nil => simp at h
  | cons c cs ih =>
    rw [utf8_cons] at h
    by_cases hlt : offset < c.utf8Size
    · rw [List.getElem?_append_left (by rwa [String.length_utf8EncodeChar])] at h
      by_cases hc : c.toNat < 128
      · rw [utf8EncodeChar_of_lt hc, List.getElem?_singleton] at h
        split at h
        · rename_i hzero
          obtain rfl := (toUInt8_eq_iff hc hd).1 (Option.some.inj h)
          exact ⟨[], cs, rfl, hzero.symm⟩
        · simp at h
      · have hle := le_of_mem_utf8EncodeChar (Nat.le_of_not_lt hc) (List.mem_of_getElem? h)
        exact absurd rfl (ne_toUInt8_of_le hle hd)
    · rw [List.getElem?_append_right (by rw [String.length_utf8EncodeChar]; omega),
        String.length_utf8EncodeChar] at h
      obtain ⟨a, rest, rfl, hlen⟩ := ih h
      refine ⟨c :: a, rest, rfl, ?_⟩
      rw [byteLength_cons]
      omega

/-- The bytes of `source` from `start` up to `stop`, as they stand.  There are none when the text
cannot be cut there. -/
def copy? (source : List Char) (start stop : Nat) : Option (List UInt8) :=
  (slice? source start stop).map fun _ => ((utf8 source).take stop).drop start

/-- Bytes that are cut at characters are the bytes of a text. -/
theorem copy?_of_slice {source cs : List Char} {start stop : Nat} (h : Slice source start stop cs) :
    copy? source start stop = some (utf8 cs) := by
  rw [copy?, slice?_eq_some_iff.2 h, Option.map_some]
  obtain ⟨before, after, rfl, rfl, rfl⟩ := h
  rw [← List.append_assoc, ← byteLength_append, take_utf8_append, drop_utf8_append]

theorem count_utf8 {d : Char} (hd : d.toNat < 128) (cs : List Char) :
    (utf8 cs).count d.toUInt8 = cs.count d := by
  induction cs with
  | nil => rfl
  | cons c cs ih =>
    rw [utf8_cons, List.count_append, ih]
    by_cases hc : c = d
    · subst hc
      rw [utf8EncodeChar_of_lt hd, List.count_singleton_self, List.count_cons_self, Nat.add_comm]
    · rw [List.count_eq_zero_of_not_mem (toUInt8_not_mem_utf8EncodeChar hd hc),
        List.count_cons_of_ne hc, Nat.zero_add]

end LogLift.Text
