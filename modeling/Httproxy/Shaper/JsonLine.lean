/-
  The two ways `parse_json_payload_into` (`src/shaper/mod.rs`) finds the text in a line of JSON.

  A line that begins with `{"data":"` and ends with `"}` is cut at both ends (the FAST path); on every
  other line the field is searched for, and the text ends at the next double quote (the GENERAL path).

  1. **Program** — `fastRange` and `generalRange` are the byte ranges of the two paths and `parseGeneral`
     is the function with its fast path taken out; `parseJsonPayloadInto_fast` and
     `parseJsonPayloadInto_general` say which of them `parseJsonPayloadInto` follows.

  2. **The crux (`generalRange_braced`)** — on a line of the fast path the field is found at index 1, so
     both ranges START at the same byte.  They end at the same byte exactly when the first quote after it
     is the one of the final `"}`.

  So the fast path is right on every line the encoder makes, and wrong on each object whose LAST field is
  a string other than `data`.  `fast_path_agrees` says so for all lines, and for the two orders in which an
  object can have its fields.
-/
import Httproxy.Shaper.Frame

namespace Httproxy.Shaper

open Bytes

/-! ## Program -/

/-- The double quote. -/
def QUOTE : UInt8 := 34

/-- The range the fast path hands to the decoder, if the line is one for it. -/
def fastRange (json : Bytes) : Option (Nat × Nat) :=
  ((dropStart DATA_START json).bind (dropEnd DATA_END)).map fun payload =>
    (DATA_START.length, DATA_START.length + payload.length)

/-- The range the general path hands to the decoder, if it finds one. -/
def generalRange (json : Bytes) : Option (Nat × Nat) :=
  (find FIELD json).bind fun start =>
    ((json.drop (start + FIELD.length)).idxOf? QUOTE).map fun dataEnd =>
      (start + FIELD.length, start + FIELD.length + dataEnd)

/-- `base122_fast::decode_into_bytes(..).map_err(err)` on a range of the line. -/
def decodeRange (base122 : Base122Fast) (json : Bytes) (range : Nat × Nat) (out : Bytes) :
    Bytes × Except IoError Nat :=
  match base122.decodeIntoBytes (slice json range.1 range.2) out with
  | (out, .error msg) => (out, .error ⟨.invalidData, msg⟩)
  | (out, .ok n) => (out, .ok n)

/-- `parse_json_payload_into` from its second half on. -/
def parseGeneral (base122 : Base122Fast) (line out : Bytes) : Bytes × Except IoError Nat :=
  let json := trimBytes line
  match generalRange json with
  | some range => decodeRange base122 json range out
  | none =>
    match find FIELD json with
    | none => (out, .error ⟨.invalidData, "missing 'data' field"⟩)
    | some _ => (out, .error ⟨.invalidData, "malformed JSON structure"⟩)

/-! ## Which path is taken -/

theorem drop_slice (b : Bytes) (start len : Nat) :
    slice b start (start + len) = (b.drop start).take len := by
  rw [slice, List.drop_take, Nat.add_sub_cancel_left]

/-- A line of the fast path is a text between its two ends, and the range is where the text stands. -/
theorem fastRange_eq_some {json : Bytes} {range : Nat × Nat} (h : fastRange json = some range) :
    ∃ text, json = DATA_START ++ text ++ DATA_END ∧
      range = (DATA_START.length, DATA_START.length + text.length) := by
  obtain ⟨text, htext, rfl⟩ := Option.map_eq_some_iff.mp h
  obtain ⟨rest, hstart, hend⟩ := Option.bind_eq_some_iff.mp htext
  refine ⟨text, ?_, rfl⟩
  rw [dropStart] at hstart
  rw [dropEnd] at hend
  split at hstart
  · rename_i hpre
    split at hend
    · rename_i hsuf
      obtain ⟨more, rfl⟩ := List.isPrefixOf_iff_prefix.mp hpre
      rw [List.drop_left] at hstart
      obtain rfl := Option.some.inj hstart
      obtain ⟨cut, rfl⟩ := List.isSuffixOf_iff_suffix.mp hsuf
      rw [List.length_append, Nat.add_sub_cancel, List.take_left] at hend
      obtain rfl := Option.some.inj hend
      exact (List.append_assoc ..).symm
    · cases hend
  · cases hstart

theorem fastRange_braced (text : Bytes) : fastRange (DATA_START ++ text ++ DATA_END) =
    some (DATA_START.length, DATA_START.length + text.length) := by
  rw [fastRange, List.append_assoc, dropStart_append, Option.bind_some, dropEnd_append, Option.map_some]

theorem parseJsonPayloadInto_fast {base122 : Base122Fast} {line : Bytes} {range : Nat × Nat}
    (h : fastRange (trimBytes line) = some range) (out : Bytes) :
    parseJsonPayloadInto base122 line out = decodeRange base122 (trimBytes line) range out := by
  obtain ⟨text, hjson, rfl⟩ := fastRange_eq_some h
  have hslice : slice (trimBytes line) DATA_START.length (DATA_START.length + text.length) = text := by
    rw [hjson]
    exact slice_append ..
  have hfast : (dropStart DATA_START (trimBytes line)).bind (dropEnd DATA_END) = some text := by
    rw [hjson, List.append_assoc, dropStart_append, Option.bind_some, dropEnd_append]
  rw [decodeRange, hslice, parseJsonPayloadInto]
  dsimp only
  rw [hfast]
  all_goals rfl

theorem parseJsonPayloadInto_general {base122 : Base122Fast} {line : Bytes}
    (h : fastRange (trimBytes line) = none) (out : Bytes) :
    parseJsonPayloadInto base122 line out = parseGeneral base122 line out := by
  have hslow : (dropStart DATA_START (trimBytes line)).bind (dropEnd DATA_END) = none :=
    Option.map_eq_none_iff.mp h
  rw [parseGeneral, parseJsonPayloadInto, generalRange]
  dsimp only
  rw [hslow]
  dsimp only
  cases hfind : find FIELD (trimBytes line) with
  | none => rfl
  | some start =>
    rw [Option.bind_some, show (34 : UInt8) = QUOTE from rfl]
    dsimp only
    cases hquote : ((trimBytes line).drop (start + FIELD.length)).idxOf? QUOTE with
    | none => rfl
    | some dataEnd =>
      dsimp only [Option.map_some]
      rw [decodeRange, drop_slice]
      all_goals rfl

theorem parseGeneral_range {base122 : Base122Fast} {line : Bytes} {range : Nat × Nat}
    (h : generalRange (trimBytes line) = some range) (out : Bytes) :
    parseGeneral base122 line out = decodeRange base122 (trimBytes line) range out := by
  rw [parseGeneral, h]

/-- Only the text in the range matters. -/
theorem decodeRange_text (base122 : Base122Fast) {json text : Bytes} {range : Nat × Nat}
    (h : slice json range.1 range.2 = text) (out : Bytes) :
    decodeRange base122 json range out = decodeRange base122 text (0, text.length) out := by
  rw [decodeRange, h, decodeRange, slice, List.take_length, List.drop_zero]

/-! ## Where the ranges end -/

/-- `find` stops at the first place where the needle begins. -/
theorem find_append {needle before rest : Bytes} (hrest : needle <+: rest) (hne : needle ≠ [])
    (hbefore : ∀ i < before.length, ¬ needle <+: (before ++ rest).drop i) :
    find needle (before ++ rest) = some before.length := by
  induction before with
  | nil =>
    cases rest with
    | nil => exact absurd (List.prefix_nil.mp hrest) hne
    | cons b bs =>
      show find needle (b :: bs) = some 0
      rw [find, if_pos (List.isPrefixOf_iff_prefix.mpr hrest)]
  | cons b bs ih =>
    have hhead : ¬ needle.isPrefixOf (b :: (bs ++ rest)) = true := by
      rw [List.isPrefixOf_iff_prefix]
      exact hbefore 0 (Nat.zero_lt_succ _)
    have htail : find needle (bs ++ rest) = some bs.length := by
      apply ih
      intro i hi
      exact hbefore (i + 1) (Nat.succ_lt_succ hi)
    rw [List.cons_append, find, if_neg hhead, htail, Option.map_some, List.length_cons]

/-- The general path reads from the first occurrence of the field up to the next quote. -/
theorem generalRange_append {before text rest : Bytes} (htext : QUOTE ∉ text)
    (hbefore : ∀ i < before.length, ¬ FIELD <+: (before ++ (FIELD ++ text ++ QUOTE :: rest)).drop i) :
    generalRange (before ++ (FIELD ++ text ++ QUOTE :: rest)) =
      some (before.length + FIELD.length, before.length + FIELD.length + text.length) := by
  have hfind : find FIELD (before ++ (FIELD ++ text ++ QUOTE :: rest)) = some before.length := by
    apply find_append _ _ hbefore
    · rw [List.append_assoc]
      exact List.prefix_append ..
    · exact List.cons_ne_nil _ _
  have hdrop : (before ++ (FIELD ++ text ++ QUOTE :: rest)).drop (before.length + FIELD.length) =
      text ++ QUOTE :: rest := by
    rw [← List.drop_drop, List.drop_left, List.append_assoc, List.drop_left]
  rw [generalRange, hfind, Option.bind_some, hdrop, idxOf?_line htext, Option.map_some]

/-- On a line of the fast path the field stands at index 1. -/
theorem generalRange_braced {text : Bytes} (htext : QUOTE ∉ text) (rest : Bytes) :
    generalRange (DATA_START ++ text ++ QUOTE :: rest) =
      some (DATA_START.length, DATA_START.length + text.length) := by
  have hsplit : DATA_START ++ text ++ QUOTE :: rest = [123] ++ (FIELD ++ text ++ QUOTE :: rest) := rfl
  rw [hsplit]
  apply generalRange_append htext
  intro i hi
  obtain rfl : i = 0 := Nat.lt_one_iff.mp hi
  rintro ⟨more, hmore⟩
  cases hmore

/-- A quote in the text ends the range of the general path before that of the fast path. -/
theorem generalRange_quoted {text : Bytes} (htext : QUOTE ∈ text) :
    generalRange (DATA_START ++ text ++ DATA_END) ≠
      some (DATA_START.length, DATA_START.length + text.length) := by
  obtain ⟨first, others, rfl, hfirst⟩ := List.eq_append_cons_of_mem htext
  have hshape : DATA_START ++ (first ++ QUOTE :: others) ++ DATA_END =
      DATA_START ++ first ++ QUOTE :: (others ++ DATA_END) := by
    simp only [List.append_assoc, List.cons_append]
  rw [hshape, generalRange_braced hfirst]
  intro heq
  have hlen := congrArg Prod.snd (Option.some.inj heq)
  rw [List.length_append, List.length_cons] at hlen
  omega

/-- The two ranges are the same exactly when there is no quote in the text. -/
theorem generalRange_fast_iff {json : Bytes} {range : Nat × Nat} (h : fastRange json = some range) :
    generalRange json = some range ↔ QUOTE ∉ slice json range.1 range.2 := by
  obtain ⟨text, rfl, rfl⟩ := fastRange_eq_some h
  rw [slice_append]
  constructor
  · intro hrange hquote
    exact generalRange_quoted hquote hrange
  · intro hquote
    exact generalRange_braced hquote [125]

/-! ## Objects with further fields -/

/-- `{"data":"text",fields}`. -/
def dataFirst (text fields : Bytes) : Bytes := DATA_START ++ text ++ QUOTE :: (44 :: fields ++ [125])

/-- `{fields,"data":"text"}`. -/
def dataLast (text fields : Bytes) : Bytes := (123 :: fields ++ [44]) ++ (FIELD ++ text ++ DATA_END)

/-- What stands between braces is not trimmed. -/
theorem trimBytes_braces (inner : Bytes) : trimBytes (123 :: inner ++ [125]) = 123 :: inner ++ [125] := by
  have hstart : (123 :: inner ++ [125]).dropWhile isAsciiWhitespace = 123 :: inner ++ [125] := rfl
  rw [trimBytes, hstart, List.rdropWhile_concat_neg _ _ _ (by decide)]

theorem trimBytes_dataFirst (text fields : Bytes) :
    trimBytes (dataFirst text fields) = dataFirst text fields := by
  have hbraces : dataFirst text fields = 123 :: (FIELD ++ text ++ QUOTE :: 44 :: fields) ++ [125] := by
    simp only [dataFirst, DATA_START, FIELD, List.cons_append, List.nil_append, List.append_assoc]
  rw [hbraces, trimBytes_braces]

theorem trimBytes_dataLast (text fields : Bytes) :
    trimBytes (dataLast text fields) = dataLast text fields := by
  have hbraces : dataLast text fields = 123 :: (fields ++ 44 :: (FIELD ++ text ++ [QUOTE])) ++ [125] := by
    simp only [dataLast, DATA_END, QUOTE, List.cons_append, List.nil_append, List.append_assoc]
  rw [hbraces, trimBytes_braces]

/-- The field has no comma, so it is not found across the one that ends `fields`. -/
theorem not_field_dataLast {text fields : Bytes} (hfields : ¬ FIELD <:+: fields) (i : Nat)
    (hi : i < (123 :: fields ++ [44] : Bytes).length) : ¬ FIELD <+: (dataLast text fields).drop i := by
  rintro ⟨more, hmore⟩
  rw [dataLast, List.drop_append_of_le_length (Nat.le_of_lt hi)] at hmore
  have hcut : FIELD <+: (123 :: fields ++ [44] : Bytes).drop i ∨
      (123 :: fields ++ [44] : Bytes).drop i <+: FIELD :=
    List.prefix_or_prefix_of_prefix ⟨more, hmore⟩ (List.prefix_append ..)
  rcases hcut with hin | hover
  · -- the field neither begins with the brace nor ends with the comma
    have hin : FIELD <:+: 123 :: (fields ++ [44]) := hin.isInfix.trans (List.drop_suffix ..).isInfix
    rcases List.infix_cons_iff.mp hin with ⟨more, hbrace⟩ | hin
    · cases hbrace
    · rcases List.infix_concat_iff.mp hin with hcomma | hin
      · rcases List.suffix_concat_iff.mp hcomma with hnil | ⟨front, hfront, -⟩
        · cases hnil
        · exact absurd (congrArg List.getLast? hfront) (by simp [FIELD])
      · exact hfields hin
  · -- the comma would be in the field
    have hcomma : 44 ∈ FIELD := by
      apply hover.subset
      rw [List.drop_append_of_le_length (Nat.le_of_lt_succ (by simpa using hi))]
      exact List.mem_append_right _ (List.mem_singleton_self 44)
    exact absurd hcomma (by decide)

/-- With `data` as the last of several fields the general path is taken, and it reads the text. -/
theorem parse_dataLast {text fields : Bytes} (htext : QUOTE ∉ text) (hfields : ¬ FIELD <:+: fields)
    (base122 : Base122Fast) (out : Bytes) :
    parseJsonPayloadInto base122 (dataLast text fields) out =
      decodeRange base122 text (0, text.length) out := by
  have hslow : fastRange (dataLast text fields) = none := by
    rw [Option.eq_none_iff_forall_ne_some]
    intro range hfast
    obtain ⟨t, hjson, -⟩ := fastRange_eq_some hfast
    apply @not_field_dataLast text fields hfields 1 (by simp)
    rw [hjson]
    exact ⟨t ++ DATA_END, rfl⟩
  have hrange := @generalRange_append (123 :: fields ++ [44]) text [125] htext
    (not_field_dataLast hfields)
  have hslice : slice (dataLast text fields) ((123 :: fields ++ [44] : Bytes).length + FIELD.length)
      ((123 :: fields ++ [44] : Bytes).length + FIELD.length + text.length) = text := by
    have hshape : dataLast text fields = (123 :: fields ++ [44]) ++ FIELD ++ text ++ DATA_END := by
      simp only [dataLast, List.append_assoc]
    rw [hshape, ← List.length_append]
    exact slice_append ..
  have htrim := trimBytes_dataLast text fields
  rw [← htrim] at hslow
  rw [show _ ++ (FIELD ++ text ++ QUOTE :: [125]) = _ from htrim.symm] at hrange
  rw [parseJsonPayloadInto_general hslow, parseGeneral_range hrange, htrim]
  exact decodeRange_text base122 hslice out

/-- With `data` first and no string last the general path is taken too, and it reads the same text. -/
theorem parse_dataFirst {text fields : Bytes} (htext : QUOTE ∉ text)
    (hlast : fields.getLast? ≠ some QUOTE) (base122 : Base122Fast) (out : Bytes) :
    parseJsonPayloadInto base122 (dataFirst text fields) out =
      decodeRange base122 text (0, text.length) out := by
  have hslow : fastRange (trimBytes (dataFirst text fields)) = none := by
    rw [trimBytes_dataFirst, Option.eq_none_iff_forall_ne_some]
    intro range hfast
    obtain ⟨t, hjson, -⟩ := fastRange_eq_some hfast
    have hbraces : DATA_START ++ (text ++ QUOTE :: 44 :: fields) ++ [125] =
        DATA_START ++ (t ++ [QUOTE]) ++ [125] := by
      have hshape : dataFirst text fields = DATA_START ++ (text ++ QUOTE :: 44 :: fields) ++ [125] := by
        simp only [dataFirst, List.append_assoc, List.cons_append]
      have hend : DATA_START ++ t ++ DATA_END = DATA_START ++ (t ++ [QUOTE]) ++ [125] := by
        simp only [DATA_END, QUOTE, List.append_assoc, List.cons_append, List.nil_append]
      rw [← hshape, hjson, hend]
    have hinner := List.append_cancel_left (List.append_cancel_right hbraces)
    have hquote := congrArg List.getLast? hinner
    rw [List.getLast?_concat, List.getLast?_append_of_ne_nil _ (List.cons_ne_nil _ _)] at hquote
    cases fields with
    | nil => exact absurd hquote (by decide)
    | cons b bs =>
      rw [List.getLast?_cons_cons, List.getLast?_cons_cons] at hquote
      exact hlast hquote
  have htrim := trimBytes_dataFirst text fields
  have hrange := generalRange_braced htext (44 :: fields ++ [125])
  rw [show DATA_START ++ text ++ QUOTE :: _ = _ from htrim.symm] at hrange
  rw [parseJsonPayloadInto_general hslow, parseGeneral_range hrange, htrim]
  exact decodeRange_text base122 (slice_append ..) out

/-- With `data` first and a string last the fast path takes everything up to that string's end. -/
theorem parse_dataFirst_string (text front : Bytes) (base122 : Base122Fast) (out : Bytes) :
    parseJsonPayloadInto base122 (dataFirst text (front ++ [QUOTE])) out =
      decodeRange base122 (text ++ QUOTE :: 44 :: front) (0, (text ++ QUOTE :: 44 :: front).length) out := by
  have hshape : dataFirst text (front ++ [QUOTE]) =
      DATA_START ++ (text ++ QUOTE :: 44 :: front) ++ DATA_END := by
    simp only [dataFirst, DATA_END, QUOTE, List.append_assoc, List.cons_append, List.nil_append]
  have htrim := trimBytes_dataFirst text (front ++ [QUOTE])
  have hfast := fastRange_braced (text ++ QUOTE :: 44 :: front)
  rw [← hshape, ← htrim] at hfast
  rw [parseJsonPayloadInto_fast hfast, htrim, hshape]
  exact decodeRange_text base122 (slice_append ..) out

/-- The decoder that hands back the text it is given. -/
def verbatim : Base122Fast := ⟨fun x _ => x, fun text _ => (text, .ok text.length)⟩

theorem decodeRange_verbatim (text out : Bytes) :
    decodeRange verbatim text (0, text.length) out = (text, .ok text.length) := by
  rw [decodeRange, slice, List.take_length, List.drop_zero]
  rfl

/-- The order of the fields is immaterial exactly when the last of the others is no string. -/
theorem parse_order_iff {text fields : Bytes} (htext : QUOTE ∉ text) (hfields : ¬ FIELD <:+: fields) :
    (∀ base122 out, parseJsonPayloadInto base122 (dataFirst text fields) out =
      parseJsonPayloadInto base122 (dataLast text fields) out) ↔ fields.getLast? ≠ some QUOTE := by
  constructor
  · intro hsame hquote
    obtain ⟨front, rfl⟩ := List.getLast?_eq_some_iff.mp hquote
    have hverbatim := hsame verbatim []
    rw [parse_dataFirst_string, parse_dataLast htext hfields, decodeRange_verbatim,
      decodeRange_verbatim] at hverbatim
    have hlonger : text ++ QUOTE :: 44 :: front = text := congrArg Prod.fst hverbatim
    have hlen := congrArg List.length hlonger
    rw [List.length_append, List.length_cons] at hlen
    omega
  · intro hlast base122 out
    rw [parse_dataFirst htext hlast, parse_dataLast htext hfields]

/-! ## The two paths -/

/-- **The fast path agrees with the general path exactly on lines without another quote.**

    On every line of the fast path the two byte ranges are the same iff there is no double quote
    between `{"data":"` and the final `"}`; then the function does what its general path would do, with
    every decoder.  For an object with further fields this says that `data` may stand before or behind
    them iff the last of them is not a string. -/
theorem fast_path_agrees (line : Bytes) (range : Nat × Nat) (text fields : Bytes) :
    (fastRange (trimBytes line) = some range →
      (generalRange (trimBytes line) = some range ↔
        QUOTE ∉ slice (trimBytes line) range.1 range.2) ∧
      (QUOTE ∉ slice (trimBytes line) range.1 range.2 → ∀ base122 out,
        parseJsonPayloadInto base122 line out = parseGeneral base122 line out)) ∧
    (QUOTE ∉ text → ¬ FIELD <:+: fields →
      ((∀ base122 out, parseJsonPayloadInto base122 (dataFirst text fields) out =
        parseJsonPayloadInto base122 (dataLast text fields) out) ↔
          fields.getLast? ≠ some QUOTE)) := by
  constructor
  · intro hfast
    have hiff := generalRange_fast_iff hfast
    refine ⟨hiff, ?_⟩
    intro hquote base122 out
    rw [parseJsonPayloadInto_fast hfast, parseGeneral_range (hiff.mpr hquote)]
  · intro htext hfields
    exact parse_order_iff htext hfields

/-- The text `A`, and the field `"k":"v"`. -/
def demoFields : Bytes := [34, 107, 34, 58, 34, 118, 34]

/-- On `{"data":"A","k":7}` and ` {"data":"A"} ` both parts apply. -/
theorem fast_path_agrees_demo :
    generalRange (trimBytes (32 :: DATA_START ++ [65] ++ DATA_END ++ [32])) = some (9, 10) ∧
    parseJsonPayloadInto publishedBase122 (dataFirst [65] [34, 107, 34, 58, 55]) [] =
      parseJsonPayloadInto publishedBase122 (dataLast [65] [34, 107, 34, 58, 55]) [] := by
  have hboth := fast_path_agrees (32 :: DATA_START ++ [65] ++ DATA_END ++ [32]) (9, 10) [65]
    [34, 107, 34, 58, 55]
  constructor
  · exact (hboth.1 (by decide +kernel)).1.mpr (by decide +kernel)
  · exact (hboth.2 (by decide) (by decide)).mpr (by decide) publishedBase122 []

/-- **A string behind `data` is taken for a part of it.**  On `{"data":"A","k":"v"}` the fast path hands
    over `A","k":"v` where the general path would hand over `A`, and the object with its fields in the
    other order decodes to something else. -/
theorem fast_path_takes_too_much :
    fastRange (trimBytes (dataFirst [65] demoFields)) = some (9, 18) ∧
    generalRange (trimBytes (dataFirst [65] demoFields)) = some (9, 10) ∧
    parseJsonPayloadInto publishedBase122 (dataFirst [65] demoFields) [] ≠
      parseJsonPayloadInto publishedBase122 (dataLast [65] demoFields) [] := by
  decide +kernel

end Httproxy.Shaper
