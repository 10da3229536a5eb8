import TheokitGateways.Irc.Line

/-!
# The wire grammar

`WireMessage` is a message as a server may write it: an optional section of tags,
an optional source, a command, middle parameters apart by one or more spaces, and
an optional trailing one. `parseIrcLine` reads back what it was made of.
-/

namespace TheokitGateways.Irc
open Js

/-- Letters, digits and what else the key of a tag may hold. -/
def isKeyUnit (c : UInt16) : Bool :=
  (unit 'a' ≤ c && c ≤ unit 'z') || (unit 'A' ≤ c && c ≤ unit 'Z') || JsonParser.isDigit c ||
    c = unit '-' || c = unit '.' || c = unit '/' || c = unit '+'

def isCommandUnit (c : UInt16) : Bool :=
  (unit 'a' ≤ c && c ≤ unit 'z') || (unit 'A' ≤ c && c ≤ unit 'Z') || JsonParser.isDigit c

/-- A unit that stands for itself in the value of a tag. -/
def isValueUnit (c : UInt16) : Bool :=
  c ≠ unit ';' && c ≠ unit ' ' && c ≠ backslash && c ≠ 0x0D && c ≠ 0x0A && c ≠ 0

/-- A unit that needs no backslash and means nothing else behind one. -/
def isPlainUnit (c : UInt16) : Bool :=
  isValueUnit c && c ≠ unit ':' && c ≠ unit 's' && c ≠ unit 'r' && c ≠ unit 'n'

/-- What the value of a tag is written with. -/
inductive Piece where
  | value (c : UInt16) (h : isValueUnit c = true)
  | semicolon
  | space
  | backslash
  | cr
  | lf
  /-- A backslash before a unit that needs none. -/
  | needless (c : UInt16) (h : isPlainUnit c = true)

namespace Piece

def text : Piece → JsString
  | value c _ => [c]
  | semicolon => [Irc.backslash, unit ':']
  | space => [Irc.backslash, unit 's']
  | backslash => [Irc.backslash, Irc.backslash]
  | cr => [Irc.backslash, unit 'r']
  | lf => [Irc.backslash, unit 'n']
  | needless c _ => [Irc.backslash, c]

def meaning : Piece → UInt16
  | value c _ => c
  | semicolon => unit ';'
  | space => unit ' '
  | backslash => Irc.backslash
  | cr => 0x0D
  | lf => 0x0A
  | needless c _ => c

end Piece

structure TagValue where
  pieces : List Piece
  /-- A lone backslash at the end means nothing. -/
  dangling : Bool := false

def TagValue.text (v : TagValue) : JsString :=
  v.pieces.flatMap Piece.text ++ if v.dangling then [backslash] else []

def TagValue.meaning (v : TagValue) : JsString := v.pieces.map Piece.meaning

structure Tag where
  key : JsString
  value : Option TagValue := none
  key_ne : key ≠ []
  key_units : key.all isKeyUnit = true

def Tag.text (t : Tag) : JsString := t.key ++ t.value.elim [] fun v => unit '=' :: v.text

def Tag.meaning (t : Tag) : JsString := t.value.elim [] TagValue.meaning

/-- A parameter before the trailing one. -/
structure Middle where
  text : JsString
  ne : text ≠ []
  head : text.head? ≠ some (unit ':')
  spaceless : unit ' ' ∉ text

/-- A run of spaces, one more than `n`. -/
def gap (n : Nat) : JsString := List.replicate (n + 1) (unit ' ')

/-- Each section comes with the number of spaces beyond the one it needs. -/
structure WireMessage where
  tags : Option (Nat × List Tag) := none
  source : Option (Nat × JsString) := none
  command : JsString
  middles : List (Nat × Middle) := []
  trailing : Option (Nat × JsString) := none
  distinct : ∀ p, tags = some p → (p.2.map Tag.key).Nodup
  source_spaceless : ∀ p, source = some p → unit ' ' ∉ p.2
  command_ne : command ≠ []
  command_units : command.all isCommandUnit = true

def paramsText (middles : List (Nat × Middle)) (trailing : Option (Nat × JsString)) : JsString :=
  middles.flatMap (fun p => gap p.1 ++ p.2.text) ++
    trailing.elim [] fun p => gap p.1 ++ unit ':' :: p.2

/-- A section that `mark` opens and spaces end. -/
def sectionText (mark : UInt16) (written : Option (Nat × JsString)) : JsString :=
  written.elim [] fun p => mark :: p.2 ++ gap p.1

namespace WireMessage

def tagsText (msg : WireMessage) : Option (Nat × JsString) :=
  msg.tags.map fun p => (p.1, [unit ';'].intercalate (p.2.map Tag.text))

/-- The line, without its CRLF. -/
def text (msg : WireMessage) : JsString :=
  sectionText (unit '@') msg.tagsText ++ (sectionText (unit ':') msg.source ++
    (msg.command ++ paramsText msg.middles msg.trailing))

def params (msg : WireMessage) : List JsString :=
  msg.middles.map (·.2.text) ++ (msg.trailing.map (·.2)).toList

/-- The value of a tag, if the message has it. -/
def tagValue (msg : WireMessage) (key : JsString) : Option JsString :=
  ((msg.tags.elim [] (·.2)).find? (·.key = key)).map Tag.meaning

end WireMessage

/-! ### Values -/

theorem unescapeTag_piece (p : Piece) (rest : JsString) :
    unescapeTag (p.text ++ rest) = p.meaning :: unescapeTag rest := by
  cases p with
  | value c h =>
    have hne : c ≠ backslash := by
      rintro rfl
      cases h
    cases rest with
    | nil => simp [Piece.text, Piece.meaning, unescapeTag, hne]
    | cons d rest => simp [Piece.text, Piece.meaning, unescapeTag, hne]
  | needless c h =>
    have hescape : tagEscape c = c := by
      simp [isPlainUnit] at h
      simp [tagEscape, h]
    show (if isLineTerminator c then c :: unescapeTag rest else tagEscape c :: unescapeTag rest) = _
    rw [hescape]
    split <;> rfl
  | semicolon => rfl
  | space => rfl
  | backslash => rfl
  | cr => rfl
  | lf => rfl

theorem unescapeTag_text (v : TagValue) : unescapeTag v.text = v.meaning := by
  unfold TagValue.text TagValue.meaning
  induction v.pieces with
  | nil => cases v.dangling <;> rfl
  | cons p pieces ih =>
    rw [List.flatMap_cons, List.append_assoc, unescapeTag_piece, ih]
    rfl

/-! ### Tags -/

theorem notMem_key {t : Tag} {c : UInt16} (hc : isKeyUnit c = false) : c ∉ t.key := by
  intro hmem
  rw [List.all_eq_true.1 t.key_units c hmem] at hc
  cases hc

/-- Neither a semicolon nor a space ends a tag too early. -/
theorem notMem_pieceText {c : UInt16} (hc : c = unit ';' ∨ c = unit ' ') (p : Piece) :
    c ∉ p.text := by
  have hvalue (d : UInt16) (h : isValueUnit d = true) : c ≠ d := by
    rintro rfl
    rcases hc with rfl | rfl <;> cases h
  rcases hc with rfl | rfl <;> cases p with
  | value d h => simpa [Piece.text] using hvalue d h
  | needless d h =>
    have hd : isValueUnit d = true := by
      simp only [isPlainUnit, Bool.and_eq_true] at h
      exact h.1.1.1.1
    have hne := hvalue d hd
    simp [Piece.text, hne]
    decide
  | _ => decide

theorem notMem_tagText {c : UInt16} (hc : c = unit ';' ∨ c = unit ' ') (t : Tag) : c ∉ t.text := by
  have hkey : c ∉ t.key := notMem_key (by rcases hc with rfl | rfl <;> decide)
  unfold Tag.text
  rw [List.mem_append, not_or]
  refine ⟨hkey, ?_⟩
  cases t.value with
  | none => exact List.not_mem_nil
  | some v =>
    have hequals : c ≠ unit '=' := by rcases hc with rfl | rfl <;> decide
    have hpieces : c ∉ v.pieces.flatMap Piece.text := fun hmem =>
      let ⟨p, _, hp⟩ := List.mem_flatMap.1 hmem
      notMem_pieceText hc p hp
    have hdangling : c ∉ if v.dangling then [backslash] else [] := by
      split
      · rcases hc with rfl | rfl <;> decide
      · exact List.not_mem_nil
    show c ∉ unit '=' :: (v.pieces.flatMap Piece.text ++ _)
    rw [List.mem_cons, List.mem_append, not_or, not_or]
    exact ⟨hequals, hpieces, hdangling⟩

theorem setTag_text (tags : OrderedMap JsString JsString) (t : Tag) :
    setTag tags t.text = tags.set t.key t.meaning := by
  have hne : t.text ≠ [] := fun h => t.key_ne (List.append_eq_nil_iff.1 h).1
  have hproto : t.key ≠ js "__proto__" := by
    intro h
    have hunit : unit '_' ∈ t.key := h ▸ List.mem_cons_self
    exact notMem_key (by decide) hunit
  have hequals : unit '=' ∉ t.key := notMem_key (by decide)
  unfold setTag
  rw [if_neg hne]
  unfold Tag.text Tag.meaning
  cases t.value with
  | none =>
    have hcut : cutAt (unit '=') t.key = none := cutAt_eq_none hequals
    simp [hcut, hproto]
  | some v =>
    have hcut : cutAt (unit '=') (t.key ++ unit '=' :: v.text) = some (t.key, v.text) :=
      cutAt_append hequals v.text
    simp [hcut, hproto, unescapeTag_text]

theorem parseTags_text (tags : List Tag) :
    parseTags ([unit ';'].intercalate (tags.map Tag.text)) =
      tags.foldl (fun m t => m.set t.key t.meaning) .empty := by
  unfold parseTags
  cases tags with
  | nil => rfl
  | cons t tags =>
    have hsplit : ([unit ';'].intercalate ((t :: tags).map Tag.text)).splitOn (unit ';') =
        (t :: tags).map Tag.text := by
      refine List.splitOn_intercalate (unit ';') (fun text htext => ?_) (by simp)
      obtain ⟨u, _, rfl⟩ := List.mem_map.1 htext
      exact notMem_tagText (.inl rfl) u
    rw [hsplit, List.foldl_map]
    simp only [setTag_text]

theorem get_tags {tags : List Tag} (hdistinct : (tags.map Tag.key).Nodup) (key : JsString) :
    (parseTags ([unit ';'].intercalate (tags.map Tag.text))).get key =
      (tags.find? (·.key = key)).map Tag.meaning := by
  have hfold : parseTags ([unit ';'].intercalate (tags.map Tag.text)) =
      (tags.map fun t => (t.key, t.meaning)).foldl (fun m e => m.set e.1 e.2) .empty := by
    rw [parseTags_text, List.foldl_map]
  rw [hfold]
  cases hfind : tags.find? (·.key = key) with
  | none =>
    have hnone : key ∉ (tags.map fun t => (t.key, t.meaning)).map Prod.fst := by
      rw [List.map_map]
      intro hmem
      obtain ⟨t, ht, hkey⟩ := List.mem_map.1 hmem
      simpa [show t.key = key from hkey] using List.find?_eq_none.1 hfind t ht
    rw [OrderedMap.get_foldl_set_of_notMem hnone]
    rfl
  | some t =>
    have hkey : t.key = key := by simpa using List.find?_some hfind
    have hmem : (key, t.meaning) ∈ tags.map fun t => (t.key, t.meaning) :=
      List.mem_map.2 ⟨t, List.mem_of_find?_eq_some hfind, by rw [hkey]⟩
    have hnodup : ((tags.map fun t => (t.key, t.meaning)).map Prod.fst).Nodup := by
      rw [List.map_map]
      exact hdistinct
    exact OrderedMap.get_foldl_set hnodup hmem _

/-! ### Sections -/

theorem dropWhile_gap {rest : JsString} (hrest : rest.head?.all (!isSpace ·) = true) (n : Nat) :
    (List.replicate n (unit ' ') ++ rest).dropWhile isSpace = rest := by
  induction n with
  | zero =>
    cases rest with
    | nil => rfl
    | cons c rest =>
      have hc : isSpace c = false := by simpa using hrest
      show (c :: rest).dropWhile isSpace = _
      rw [List.dropWhile_cons, hc]
      rfl
  | succ n ih => exact ih

/-- A section is taken off the line with the spaces that end it. -/
theorem takeSection_text {mark : UInt16} {written : Option (Nat × JsString)} {rest : JsString}
    (hspaceless : ∀ p, written = some p → unit ' ' ∉ p.2)
    (hrest : rest.head?.all (fun c => !isSpace c && c ≠ mark) = true) :
    takeSection mark (sectionText mark written ++ rest) = some (written.map (·.2), rest) := by
  cases written with
  | none =>
    cases rest with
    | nil => rfl
    | cons c rest =>
      have hmark : c ≠ mark := by simpa using (Bool.and_eq_true_iff.1 hrest).2
      exact if_pos hmark
  | some p =>
    obtain ⟨n, text⟩ := p
    have hcut : cutAt (unit ' ') (text ++ gap n ++ rest) =
        some (text, List.replicate n (unit ' ') ++ rest) := by
      rw [List.append_assoc]
      exact cutAt_append (hspaceless _ rfl) _
    have hdrop : (List.replicate n (unit ' ') ++ rest).dropWhile isSpace = rest := by
      refine dropWhile_gap ?_ n
      cases rest with
      | nil => rfl
      | cons c rest => exact (Bool.and_eq_true_iff.1 hrest).1
    show (if mark ≠ mark then _ else (cutAt (unit ' ') (text ++ gap n ++ rest)).map _) = _
    rw [if_neg (not_not_intro rfl), hcut]
    simp [hdrop]

/-! ### Parameters -/

theorem paramsLoop_gap {fuel n : Nat} (hfuel : n + 1 ≤ fuel) (rest : JsString) :
    paramsLoop fuel (gap n ++ rest) = paramsLoop (fuel - (n + 1)) rest := by
  obtain ⟨k, rfl⟩ := Nat.exists_eq_add_of_le hfuel
  have hspaces (n : Nat) :
      paramsLoop (n + k) (List.replicate n (unit ' ') ++ rest) = paramsLoop k rest := by
    induction n with
    | zero => rw [Nat.zero_add]; rfl
    | succ n ih =>
      rw [Nat.add_right_comm]
      exact ih
  rw [Nat.add_sub_cancel_left]
  exact hspaces (n + 1)

/-- A parameter ends with the line, or before a space. -/
theorem paramsLoop_middle (p : Middle) {rest : JsString}
    (hrest : rest.head?.all (· = unit ' ') = true) (fuel : Nat) :
    paramsLoop (fuel + 1) (p.text ++ rest) = p.text :: paramsLoop (fuel + 1) rest := by
  have hhead := p.head
  have hspaceless := p.spaceless
  cases htext : p.text with
  | nil => exact absurd htext p.ne
  | cons c text =>
    rw [htext] at hhead hspaceless
    have hcolon : c ≠ unit ':' := fun h => hhead (congrArg some h)
    rw [List.cons_append, paramsLoop, if_neg hcolon]
    cases rest with
    | nil =>
      simp only [List.append_nil, cutAt_eq_none hspaceless]
      rfl
    | cons d rest =>
      obtain rfl : d = unit ' ' := by simpa using hrest
      have hcut : cutAt (unit ' ') (c :: (text ++ unit ' ' :: rest)) = some (c :: text, rest) :=
        cutAt_append hspaceless rest
      simp only [hcut]
      rfl

theorem head_paramsText (middles : List (Nat × Middle)) (trailing : Option (Nat × JsString)) :
    (paramsText middles trailing).head?.all (· = unit ' ') = true := by
  cases middles with
  | nil => cases trailing <;> rfl
  | cons p middles => rfl

theorem paramsLoop_text {fuel : Nat} (middles : List (Nat × Middle))
    (trailing : Option (Nat × JsString)) (hfuel : (paramsText middles trailing).length ≤ fuel) :
    paramsLoop fuel (paramsText middles trailing) =
      middles.map (·.2.text) ++ (trailing.map (·.2)).toList := by
  induction middles generalizing fuel with
  | nil =>
    cases trailing with
    | none => cases fuel <;> rfl
    | some p =>
      have hlength : p.1 + 1 + (p.2.length + 1) ≤ fuel := by
        simpa [paramsText, gap] using hfuel
      show paramsLoop fuel (gap p.1 ++ unit ':' :: p.2) = [p.2]
      rw [paramsLoop_gap (by omega)]
      obtain ⟨k, hk⟩ : ∃ k, fuel - (p.1 + 1) = k + 1 := ⟨fuel - (p.1 + 1) - 1, by omega⟩
      rw [hk]
      rfl
  | cons p middles ih =>
    have htext : paramsText (p :: middles) trailing =
        gap p.1 ++ (p.2.text ++ paramsText middles trailing) := by
      simp [paramsText]
    have hpos := List.length_pos_iff.2 p.2.ne
    have hlength : p.1 + 1 + (p.2.text.length + (paramsText middles trailing).length) ≤ fuel := by
      rw [htext] at hfuel
      simpa [gap] using hfuel
    rw [htext, paramsLoop_gap (by omega)]
    obtain ⟨k, hk⟩ : ∃ k, fuel - (p.1 + 1) = k + 1 := ⟨fuel - (p.1 + 1) - 1, by omega⟩
    rw [hk, paramsLoop_middle p.2 (head_paramsText middles trailing), ih (by omega)]
    rfl

/-! ### The line -/

theorem head_command (msg : WireMessage) :
    ∃ c rest, msg.command = c :: rest ∧ isCommandUnit c = true := by
  cases hcommand : msg.command with
  | nil => exact absurd hcommand msg.command_ne
  | cons c rest =>
    have hunits := msg.command_units
    rw [hcommand, List.all_cons, Bool.and_eq_true] at hunits
    exact ⟨c, rest, rfl, hunits.1⟩

/-- The runtime's upper case of ASCII text. -/
def UppersAscii (m : CaseMapping) : Prop :=
  ∀ s : JsString, (∀ c ∈ s, c < 0x80) → m.toUpperCase s = asciiCase.toUpperCase s

theorem splitCommand_text (m : CaseMapping) (msg : WireMessage) :
    splitCommand m (msg.command ++ paramsText msg.middles msg.trailing) =
      (m.toUpperCase msg.command, msg.params) := by
  have hspaceless : unit ' ' ∉ msg.command := by
    intro hmem
    have hunit := List.all_eq_true.1 msg.command_units _ hmem
    revert hunit
    decide
  have hloop := paramsLoop_text msg.middles msg.trailing (Nat.le_refl _)
  have hhead := head_paramsText msg.middles msg.trailing
  unfold splitCommand WireMessage.params
  cases htext : paramsText msg.middles msg.trailing with
  | nil =>
    rw [htext] at hloop
    rw [List.append_nil, cutAt_eq_none hspaceless, ← hloop]
    rfl
  | cons c rest =>
    rw [htext] at hloop hhead
    obtain rfl : c = unit ' ' := by simpa using hhead
    rw [cutAt_append hspaceless, ← hloop]
    rfl

theorem commandUnit_range {c : UInt16} (h : isCommandUnit c = true) :
    0x30 ≤ c.toNat ∧ c.toNat < 0x80 ∧ c.toNat ≠ 0x3A ∧ c.toNat ≠ 0x40 := by
  simp only [isCommandUnit, JsonParser.isDigit, unit, Bool.or_eq_true, Bool.and_eq_true,
    decide_eq_true_eq, UInt16.le_iff_toNat_le] at h
  simp at h
  omega

theorem isSpace_eq_false {c : UInt16} (hlow : 0x20 < c.toNat) (hhigh : c.toNat < 0x80) :
    isSpace c = false := by
  have hne (d : UInt16) (hd : d.toNat ≤ 0x20 ∨ 0x80 ≤ d.toNat) : c ≠ d := by
    rintro rfl
    omega
  simp only [isSpace]
  simp [UInt16.le_iff_toNat_le, hne]
  omega

/-- A command opens no section and is no space. -/
theorem commandUnit_opens {c mark : UInt16} (h : isCommandUnit c = true)
    (hmark : mark = unit ':' ∨ mark = unit '@') : (!isSpace c && c ≠ mark) = true := by
  obtain ⟨hlow, hhigh, hcolon, hat⟩ := commandUnit_range h
  have hspace : isSpace c = false := isSpace_eq_false (by omega) hhigh
  have hne : c ≠ mark := by
    rintro rfl
    rcases hmark with rfl | rfl
    · exact hcolon rfl
    · exact hat rfl
  simp [hspace, hne]

theorem spaceless_tagsText (msg : WireMessage) (p : Nat × JsString)
    (h : msg.tagsText = some p) : unit ' ' ∉ p.2 := by
  obtain ⟨q, _, rfl⟩ := Option.map_eq_some_iff.1 h
  refine notMem_intercalate (by decide) fun text htext => ?_
  obtain ⟨t, _, rfl⟩ := List.mem_map.1 htext
  exact notMem_tagText (.inr rfl) t

/-- The parser reads back what a line was made of. -/
theorem parseIrcLine_text {m : CaseMapping} (hm : UppersAscii m) (msg : WireMessage) :
    ∃ line, parseIrcLine m msg.text = some line ∧ line.linePrefix = msg.source.map (·.2) ∧
      line.command = asciiCase.toUpperCase msg.command ∧ line.params = msg.params ∧
      ∀ key, line.tags.get key = msg.tagValue key := by
  obtain ⟨c, rest, hcommand, hunit⟩ := head_command msg
  have hunits (p : UInt16 → Bool) (hp : ∀ c, isCommandUnit c = true → p c = true) :
      (msg.command ++ paramsText msg.middles msg.trailing).head?.all p = true := by
    rw [hcommand]
    exact hp c hunit
  have hsource : takeSection (unit ':') (sectionText (unit ':') msg.source ++
      (msg.command ++ paramsText msg.middles msg.trailing)) =
        some (msg.source.map (·.2), msg.command ++ paramsText msg.middles msg.trailing) :=
    takeSection_text msg.source_spaceless (hunits _ fun _ h => commandUnit_opens h (.inl rfl))
  have htags : takeSection (unit '@') msg.text = some (msg.tagsText.map (·.2),
      sectionText (unit ':') msg.source ++
        (msg.command ++ paramsText msg.middles msg.trailing)) := by
    refine takeSection_text (spaceless_tagsText msg) ?_
    cases msg.source with
    | none => exact hunits _ fun _ h => commandUnit_opens h (.inr rfl)
    | some p => rfl
  have hupper : m.toUpperCase msg.command = asciiCase.toUpperCase msg.command := by
    refine hm _ fun c hc => ?_
    obtain ⟨_, hhigh, _⟩ := commandUnit_range (List.all_eq_true.1 msg.command_units c hc)
    exact UInt16.lt_iff_toNat_lt.2 hhigh
  have hne : asciiCase.toUpperCase msg.command ≠ [] := by
    rw [hcommand]
    exact List.cons_ne_nil _ _
  refine ⟨⟨(msg.tagsText.map fun p => parseTags p.2).getD .empty, msg.source.map (·.2),
    asciiCase.toUpperCase msg.command, msg.params⟩, ?_, rfl, rfl, rfl, fun key => ?_⟩
  · unfold parseIrcLine
    simp only [htags, bind, Option.bind, hsource, splitCommand_text, hupper, if_neg hne,
      Option.map_map]
    rfl
  · show ((msg.tagsText.map fun p => parseTags p.2).getD .empty).get key = msg.tagValue key
    have hdistinct := msg.distinct
    unfold WireMessage.tagsText WireMessage.tagValue
    cases htags : msg.tags with
    | none => rfl
    | some p => exact get_tags (hdistinct p htags) key

/-- Two tags, a source, a parameter after two spaces and a trailing one with marks of its own. -/
def taggedMessage : WireMessage where
  tags := some (1, [
    { key := js "msgid"
      value := some ⟨[.value (unit 'a') rfl, .semicolon, .needless (unit 'b') rfl], true⟩
      key_ne := by decide
      key_units := by decide },
    { key := js "+draft/x", key_ne := by decide, key_units := by decide }])
  source := some (0, js "bob!u@h")
  command := js "privmsg"
  middles := [(1, ⟨js "#x", by decide, by decide, by decide⟩)]
  trailing := some (0, js ":hi :there ")
  distinct p hp := by
    cases hp
    decide
  source_spaceless p hp := by
    cases hp
    decide
  command_ne := by decide
  command_units := by decide

theorem parseIrcLine_taggedMessage :
    UppersAscii asciiCase ∧ ∃ line, parseIrcLine asciiCase taggedMessage.text = some line ∧
      line.linePrefix = taggedMessage.source.map (·.2) ∧
      line.command = asciiCase.toUpperCase taggedMessage.command ∧
      line.params = taggedMessage.params ∧
      ∀ key, line.tags.get key = taggedMessage.tagValue key :=
  ⟨fun _ _ => rfl, parseIrcLine_text (fun _ _ => rfl) taggedMessage⟩

end TheokitGateways.Irc
