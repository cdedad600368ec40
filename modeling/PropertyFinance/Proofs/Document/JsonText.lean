import PropertyFinance.Json.Reader
import PropertyFinance.Json.Writer
import PropertyFinance.Proofs.Document.Alike
import PropertyFinance.Proofs.Document.DecimalText

/-! A document that is written as a text and read again is the same document, unless it is nested
deeper than can be read. -/

namespace PropertyFinance
set_option autoImplicit false

theorem Digits.toChar_eq_zero {d : Nat} (h : toChar d = '0') : d % 10 = 0 := by
  rw [← valueOf_toChar, h]
  rfl

/-- No zero stands in front of other digits. -/
theorem Digits.ofNat_ne_zero_cons (n : Nat) (c : Char) (cs : List Char) :
    Digits.ofNat n ≠ '0' :: c :: cs := by
  have head {n : Nat} (hn : n ≠ 0) : (Digits.ofNat n).head? ≠ some '0' := by
    fun_induction Digits.ofNat n with
    | case1 n hlt =>
      intro h
      have hzero := toChar_eq_zero (Option.some.inj h)
      omega
    | case2 n hge ih =>
      obtain ⟨d, ds, hds, -⟩ := exists_ofNat_eq_cons (n / 10)
      rw [hds] at ih ⊢
      exact ih (by omega)
  intro h
  by_cases hn : n = 0
  · subst hn
    exact absurd h (by rw [ofNat]; simp)
  · exact head hn (by rw [h]; rfl)

namespace Json.Reader

section Texts
variable {c : Char} {cs done rest : List Char}

theorem hexDigit?_hexChar : ∀ d < 16, hexDigit? (hexChar d) = some d := by decide

theorem readChar_control (h : c.toNat < 32) :
    readChar ('\\' :: 'u' :: '0' :: '0' :: hexChar (c.toNat / 16) :: hexChar (c.toNat % 16) :: rest) =
      some (some c, rest) := by
  have hunit : readUnit ('0' :: '0' :: hexChar (c.toNat / 16) :: hexChar (c.toNat % 16) :: rest) =
      some (c.toNat, rest) := by
    have hzero : hexDigit? '0' = some 0 := rfl
    have hvalue : 16 * (c.toNat / 16) + c.toNat % 16 = c.toNat := Nat.div_add_mod _ _
    simp [readUnit, hzero, hexDigit?_hexChar (c.toNat / 16) (by omega),
      hexDigit?_hexChar (c.toNat % 16) (by omega), hvalue]
  have hlow : isLowSurrogate c.toNat = false := by
    simp only [isLowSurrogate, Bool.and_eq_false_iff, decide_eq_false_iff_not]
    omega
  have hhigh : isHighSurrogate c.toNat = false := by
    simp only [isHighSurrogate, Bool.and_eq_false_iff, decide_eq_false_iff_not]
    omega
  simp [readChar, hunit, hlow, hhigh]

theorem readChar_escapeChar (c : Char) (rest : List Char) :
    readChar (escapeChar c ++ rest) = some (some c, rest) := by
  unfold escapeChar
  split
  case h_8 =>
    split
    · exact readChar_control ‹_›
    · rename_i hslash _ _ _ _ _ hcontrol
      rw [List.singleton_append, readChar]
      · simpa [hcontrol] using hslash
      · exact fun _ heq _ => hslash heq
      · exact fun _ _ heq _ => hslash heq
  all_goals rfl

theorem escapeChar_ne_quote (c : Char) (rest : List Char) :
    ∃ d ds, escapeChar c ++ rest = d :: ds ∧ d ≠ '"' := by
  unfold escapeChar
  split
  case h_8 =>
    split
    · exact ⟨_, _, rfl, by decide⟩
    · exact ⟨_, _, rfl, ‹_›⟩
  all_goals exact ⟨_, _, rfl, by decide⟩

theorem readText_escaped {fuel : Nat} (h : cs.length < fuel) :
    readText fuel (cs.flatMap escapeChar ++ '"' :: rest) done true =
      some (some (String.ofList (done.reverse ++ cs)), rest) := by
  induction cs generalizing fuel done with
  | nil =>
    cases fuel with
    | zero => exact absurd h (Nat.not_lt_zero _)
    | succ fuel => simp [readText]
  | cons c cs ih =>
    cases fuel with
    | zero => exact absurd h (Nat.not_lt_zero _)
    | succ fuel =>
      obtain ⟨d, ds, hd, hne⟩ := escapeChar_ne_quote c (cs.flatMap escapeChar ++ '"' :: rest)
      have hread := readChar_escapeChar c (cs.flatMap escapeChar ++ '"' :: rest)
      rw [List.flatMap_cons, List.append_assoc]
      rw [hd] at hread ⊢
      have hlength : cs.length < fuel := Nat.lt_of_succ_lt_succ h
      rw [readText]
      · simp [hread, ih hlength]
      · rintro rest' heq
        exact hne (List.cons.inj heq).1

theorem length_le_flatMap_escapeChar (cs : List Char) : cs.length ≤ (cs.flatMap escapeChar).length := by
  induction cs with
  | nil => exact Nat.le_refl 0
  | cons c cs ih =>
    obtain ⟨d, ds, hd, -⟩ := escapeChar_ne_quote c []
    rw [List.append_nil] at hd
    rw [List.flatMap_cons, hd, List.length_append, List.length_cons, List.length_cons]
    omega

theorem readText_quoted (cs rest : List Char) :
    readText ((cs.flatMap escapeChar ++ '"' :: rest).length + 1)
        (cs.flatMap escapeChar ++ '"' :: rest) [] true =
      some (some (String.ofList cs), rest) := by
  refine readText_escaped ?_
  have hlength := length_le_flatMap_escapeChar cs
  rw [List.length_append]
  omega

end Texts

/-- Where a value ends: at the end of the text or of what it is part of. -/
def Ends (rest : List Char) : Prop := ∀ c ∈ rest.head?, c = ',' ∨ c = ']' ∨ c = '\x7d'

theorem ends_nil : Ends [] := nofun

theorem Ends.cases {rest : List Char} (h : Ends rest) :
    rest = [] ∨ ∃ cs, rest = ',' :: cs ∨ rest = ']' :: cs ∨ rest = '\x7d' :: cs := by
  cases rest with
  | nil => exact .inl rfl
  | cons c cs => rcases h c rfl with rfl | rfl | rfl <;> simp

section Numbers
variable {n : Nat} {rest : List Char}

theorem isBlank_of_isDigit {c : Char} (h : c.isDigit = true) : isBlank c = false := by
  simp [isBlank, Decimal.ne_of_isDigit h (d := ' ') rfl, Decimal.ne_of_isDigit h (d := '\n') rfl,
    Decimal.ne_of_isDigit h (d := '\t') rfl, Decimal.ne_of_isDigit h (d := '\r') rfl]

theorem digits_ofNat (h : Ends rest) : digits (Digits.ofNat n ++ rest) = (Digits.ofNat n, rest) := by
  have hall : ∀ c ∈ Digits.ofNat n, c.isDigit = true := fun c => Digits.isDigit_of_mem_ofNat
  have htake : rest.takeWhile Char.isDigit = [] := by
    rcases h.cases with rfl | ⟨cs, rfl | rfl | rfl⟩ <;> rfl
  have hdrop : rest.dropWhile Char.isDigit = rest := by
    rcases h.cases with rfl | ⟨cs, rfl | rfl | rfl⟩ <;> rfl
  rw [digits, List.takeWhile_append_of_pos hall, List.dropWhile_append_of_pos hall, htake, hdrop,
    List.append_nil]

theorem readLiteral_ofNat (h : Ends rest) :
    readLiteral (Digits.ofNat n ++ rest) = some (⟨false, Digits.ofNat n, none, none⟩, rest) := by
  obtain ⟨c, cs, hcs, hc⟩ := Digits.exists_ofNat_eq_cons n
  have hsome : someDigits (Digits.ofNat n ++ rest) = some (Digits.ofNat n, rest) := by
    rw [someDigits, digits_ofNat h, hcs]
  have hwhole : readWhole (Digits.ofNat n ++ rest) = some (Digits.ofNat n, rest) := by
    simp only [readWhole, hsome, Option.bind_eq_bind, Option.bind_some]
    split
    · rename_i heq
      exact absurd (Prod.mk.inj heq).1 (Digits.ofNat_ne_zero_cons n _ _)
    · rfl
  have hplaces : readPlaces rest = some (none, rest) := by
    rcases h.cases with rfl | ⟨cs, rfl | rfl | rfl⟩ <;> rfl
  have hexponent : readExponent rest = some (none, rest) := by
    rcases h.cases with rfl | ⟨cs, rfl | rfl | rfl⟩ <;> rfl
  have hminus : c ≠ '-' := Decimal.ne_of_isDigit hc rfl
  rw [hcs] at hwhole ⊢
  unfold readLiteral
  split
  rename_i hsign
  split at hsign
  · exact absurd (List.cons.inj ‹_›).1 hminus
  · cases hsign
    simp only [hwhole, hplaces, hexponent, Option.bind_eq_bind, Option.bind_some]

theorem toNumeral_ofNat (h : n < wordLimit) :
    Literal.toNumeral ⟨false, Digits.ofNat n, none, none⟩ = some (.integer n) := by
  simp [Literal.toNumeral, Literal.isWhole, Digits.toNat_ofNat, h]

end Numbers

end Json.Reader

namespace Json

theorem renderItems_eq (items : List Json) : renderItems items = items.map render := by
  induction items with
  | nil => rfl
  | cons item rest ih => rw [renderItems, ih, List.map_cons]

theorem renderEntries_eq (entries : List (String × Json)) :
    renderEntries entries = entries.map fun e => quoted e.1 ++ ":" ++ e.2.render := by
  induction entries with
  | nil => rfl
  | cons entry rest ih => rw [renderEntries, ih, List.map_cons]

theorem enclose_toList (opening closing : String) (parts : List String) :
    (enclose opening closing "," "" "" parts).toList =
      opening.toList ++ List.intercalate [','] (parts.map String.toList) ++ closing.toList := by
  unfold enclose
  cases parts with
  | nil => simp
  | cons part rest => simp [String.toList_intercalate]

/-- The characters of the items, with commas between them. -/
def itemChars (items : List Json) : List Char :=
  List.intercalate [','] (items.map fun item => item.render.toList)

def entryChars (e : String × Json) : List Char :=
  '"' :: (e.1.toList.flatMap escapeChar ++ '"' :: ':' :: e.2.render.toList)

def entriesChars (entries : List (String × Json)) : List Char :=
  List.intercalate [','] (entries.map entryChars)

theorem render_array_toList (items : List Json) :
    (array items).render.toList = '[' :: (itemChars items ++ [']']) := by
  rw [render, enclose_toList, renderItems_eq, List.map_map]
  rfl

theorem render_object_toList (entries : List (String × Json)) :
    (object entries).render.toList = '\x7b' :: (entriesChars entries ++ ['\x7d']) := by
  have hentry (e : String × Json) : (quoted e.1 ++ ":" ++ e.2.render).toList = entryChars e := by
    simp [quoted, entryChars]
  have hentries : entries.map (String.toList ∘ fun e => quoted e.1 ++ ":" ++ e.2.render) =
      entries.map entryChars := List.map_congr_left fun e _ => hentry e
  rw [render, enclose_toList, renderEntries_eq, List.map_map, hentries]
  rfl

theorem render_text_toList (s : String) :
    (text s).render.toList = '"' :: (s.toList.flatMap escapeChar ++ ['"']) := by
  rw [render, quoted, String.toList_ofList]
  rfl

theorem render_count_toList {n : Nat} :
    (number (.integer n)).render.toList = Digits.ofNat n := by
  simp [render, numeralText, Decimal.signChars]

open Reader

/-- No blank stands in front of a value, and no closing bracket. -/
theorem exists_render_eq_cons (json : Json) (h : json.Proper) :
    ∃ c cs, json.render.toList = c :: cs ∧ isBlank c = false ∧ c ≠ ']' := by
  cases json with
  | null => exact ⟨_, _, rfl, rfl, by decide⟩
  | bool b => cases b <;> exact ⟨_, _, rfl, rfl, by decide⟩
  | text s => exact ⟨_, _, render_text_toList s, rfl, by decide⟩
  | array items => exact ⟨_, _, render_array_toList items, rfl, by decide⟩
  | object entries => exact ⟨_, _, render_object_toList entries, rfl, by decide⟩
  | unreadable => exact h.elim
  | number n =>
    cases n with
    | real x => exact h.elim
    | integer n =>
      obtain ⟨n, rfl⟩ := Int.eq_ofNat_of_zero_le h.1
      obtain ⟨c, cs, hcs, hc⟩ := Digits.exists_ofNat_eq_cons n
      exact ⟨c, cs, render_count_toList.trans hcs, isBlank_of_isDigit hc, Decimal.ne_of_isDigit hc rfl⟩

theorem skipBlanks_cons {c : Char} {cs : List Char} (h : isBlank c = false) :
    skipBlanks (c :: cs) = c :: cs := by
  rw [skipBlanks, List.dropWhile_cons, h]
  rfl

theorem itemChars_cons (item next : Json) (items : List Json) :
    itemChars (item :: next :: items) = item.render.toList ++ ',' :: itemChars (next :: items) := by
  simp [itemChars, List.intercalate_cons_cons]

theorem entriesChars_cons (entry next : String × Json) (entries : List (String × Json)) :
    entriesChars (entry :: next :: entries) =
      entryChars entry ++ ',' :: entriesChars (next :: entries) := by
  simp [entriesChars, List.intercalate_cons_cons]

theorem readValue_count {n : Nat} {rest : List Char} (h : n < wordLimit) (hrest : Ends rest)
    (fuel depth : Nat) :
    readValue (fuel + 1) depth (Digits.ofNat n ++ rest) = some (number (.integer n), rest) := by
  obtain ⟨c, cs, hcs, hc⟩ := Digits.exists_ofNat_eq_cons n
  have hliteral := readLiteral_ofNat (n := n) hrest
  rw [hcs, List.cons_append] at hliteral ⊢
  rw [readValue, skipBlanks_cons (isBlank_of_isDigit hc)]
  split
  case h_7 =>
    rw [hliteral]
    simp only [Option.bind_eq_bind, Option.bind_some]
    rw [← hcs, toNumeral_ofNat h]
    rfl
  all_goals exact absurd (List.cons.inj ‹_›).1 (Decimal.ne_of_isDigit hc rfl)

theorem readValue_text (s : String) (fuel depth : Nat) (rest : List Char) :
    readValue (fuel + 1) depth ((text s).render.toList ++ rest) = some (text s, rest) := by
  rw [render_text_toList, List.cons_append, List.append_assoc, List.singleton_append, readValue,
    skipBlanks_cons rfl]
  simp only [readText_quoted, Option.bind_eq_bind, Option.bind_some, String.ofList_toList]
  rfl

theorem exists_itemChars_eq_cons {item : Json} (h : item.Proper) (items : List Json) :
    ∃ c cs, itemChars (item :: items) = c :: cs ∧ isBlank c = false ∧ c ≠ ']' := by
  obtain ⟨c, cs, hcs, hc⟩ := exists_render_eq_cons item h
  cases items with
  | nil => exact ⟨c, cs, by simpa [itemChars] using hcs, hc⟩
  | cons next items => exact ⟨c, _, by rw [itemChars_cons, hcs, List.cons_append], hc⟩

theorem exists_entriesChars_eq_cons (entry : String × Json) (entries : List (String × Json)) :
    ∃ cs, entriesChars (entry :: entries) = '"' :: cs := by
  cases entries with
  | nil => exact ⟨_, by simp only [entriesChars, List.map_cons, List.map_nil,
      List.intercalate_singleton, entryChars]; rfl⟩
  | cons next entries => exact ⟨_, by rw [entriesChars_cons, entryChars, List.cons_append]⟩

theorem objectOf_some (entries : List (String × Json)) :
    objectOf (entries.map fun e => (some e.1, e.2)) = object entries := by
  have hnames : (entries.map fun e : String × Json => (some e.1, e.2)).mapM
      (fun e => e.1.map fun n => (n, e.2)) = some entries := by
    induction entries with
    | nil => rfl
    | cons e rest ih => simp [ih]
  unfold objectOf
  split
  · rename_i hfound
    cases hfound.symm.trans hnames
    rfl
  · rename_i hnone
    cases hnone.symm.trans hnames

theorem ends_comma (rest : List Char) : Ends (',' :: rest) := by
  rintro c ⟨⟩
  exact .inl rfl

theorem ends_bracket (rest : List Char) : Ends (']' :: rest) := by
  rintro c ⟨⟩
  exact .inr (.inl rfl)

theorem ends_brace (rest : List Char) : Ends ('\x7d' :: rest) := by
  rintro c ⟨⟩
  exact .inr (.inr rfl)

/-- What follows an entry's name and value: the end of the object or another entry. -/
theorem readEntries_entry (name : String) (value : Json) (fuel depth : Nat) (rest : List Char) :
    readEntries (fuel + 1) depth (entryChars (name, value) ++ rest) =
      (readValue fuel depth (value.render.toList ++ rest)).bind fun read =>
        match skipBlanks read.2 with
        | '\x7d' :: rest => some ([(some name, read.1)], rest)
        | ',' :: rest => (readEntries fuel depth rest).bind fun more =>
          some ((some name, read.1) :: more.1, more.2)
        | _ => none := by
  rw [entryChars, List.cons_append, List.append_assoc, readEntries, skipBlanks_cons (c := '"') rfl]
  simp only [List.cons_append, readText_quoted, Option.bind_eq_bind, Option.bind_some,
    String.ofList_toList]
  rfl

theorem length_render_lt_entryChars (name : String) (value : Json) :
    value.render.toList.length < (entryChars (name, value)).length := by
  simp only [entryChars, List.length_cons, List.length_append]
  omega

mutual

/-- What is left of a document that is read inside so many levels. -/
def cut (depth : Nat) : Json → Json
  | array items => atDepth (depth + 1) (array (cutItems (depth + 1) items))
  | object entries => atDepth (depth + 1) (object (cutEntries (depth + 1) entries))
  | json => json

def cutItems (depth : Nat) : List Json → List Json
  | [] => []
  | item :: rest => cut depth item :: cutItems depth rest

def cutEntries (depth : Nat) : List (String × Json) → List (String × Json)
  | [] => []
  | (name, value) :: rest => (name, cut depth value) :: cutEntries depth rest

end

mutual

theorem cut_eq_self : ∀ (json : Json) {depth : Nat}, json.depth + depth ≤ maxDepth →
    json.cut depth = json
  | array items, depth, h => by
    have hitems : depthOfItems items + (depth + 1) ≤ maxDepth := by
      rw [Json.depth] at h
      omega
    rw [cut, cutItems_eq_self items hitems]
    exact if_neg (by omega)
  | object entries, depth, h => by
    have hentries : depthOfEntries entries + (depth + 1) ≤ maxDepth := by
      rw [Json.depth] at h
      omega
    rw [cut, cutEntries_eq_self entries hentries]
    exact if_neg (by omega)
  | null, _, _ | bool _, _, _ | number _, _, _ | text _, _, _ | unreadable, _, _ => rfl

theorem cutItems_eq_self : ∀ (items : List Json) {depth : Nat},
    depthOfItems items + depth ≤ maxDepth → cutItems depth items = items
  | [], _, _ => rfl
  | item :: rest, depth, h => by
    rw [depthOfItems] at h
    rw [cutItems, cut_eq_self item (by omega), cutItems_eq_self rest (by omega)]

theorem cutEntries_eq_self : ∀ (entries : List (String × Json)) {depth : Nat},
    depthOfEntries entries + depth ≤ maxDepth → cutEntries depth entries = entries
  | [], _, _ => rfl
  | (name, value) :: rest, depth, h => by
    rw [depthOfEntries] at h
    rw [cutEntries, cut_eq_self value (by omega), cutEntries_eq_self rest (by omega)]

end

section Brackets
variable {fuel depth : Nat} {rest : List Char}

theorem readValue_array_nil (fuel depth : Nat) (rest : List Char) :
    readValue (fuel + 1) depth ((array []).render.toList ++ rest) =
      some ((array []).cut depth, rest) := by
  rw [render_array_toList]
  rfl

theorem readValue_object_nil (fuel depth : Nat) (rest : List Char) :
    readValue (fuel + 1) depth ((object []).render.toList ++ rest) =
      some ((object []).cut depth, rest) := by
  rw [render_object_toList]
  rfl

theorem readValue_array {item : Json} {items : List Json} (hitem : item.Proper)
    (hread : readItems fuel (depth + 1) (itemChars (item :: items) ++ ']' :: rest) =
      some (cutItems (depth + 1) (item :: items), rest)) :
    readValue (fuel + 1) depth ((array (item :: items)).render.toList ++ rest) =
      some ((array (item :: items)).cut depth, rest) := by
  obtain ⟨c, cs, hcs, hblank, hbracket⟩ := exists_itemChars_eq_cons hitem items
  rw [render_array_toList, List.cons_append, List.append_assoc, List.singleton_append, readValue,
    skipBlanks_cons rfl]
  rw [hcs, List.cons_append] at hread ⊢
  simp only [skipBlanks_cons hblank]
  split
  · exact absurd (List.cons.inj ‹_›).1 hbracket
  · simp only [hread, Option.bind_eq_bind, Option.bind_some, cut]

theorem readValue_object {entry : String × Json} {entries : List (String × Json)}
    (hread : readEntries fuel (depth + 1) (entriesChars (entry :: entries) ++ '\x7d' :: rest) =
      some ((cutEntries (depth + 1) (entry :: entries)).map fun e => (some e.1, e.2), rest)) :
    readValue (fuel + 1) depth ((object (entry :: entries)).render.toList ++ rest) =
      some ((object (entry :: entries)).cut depth, rest) := by
  obtain ⟨cs, hcs⟩ := exists_entriesChars_eq_cons entry entries
  rw [render_object_toList, List.cons_append, List.append_assoc, List.singleton_append, readValue,
    skipBlanks_cons rfl]
  rw [hcs, List.cons_append] at hread ⊢
  simp only [skipBlanks_cons (c := '"') rfl]
  split
  · exact absurd (List.cons.inj ‹_›).1 (by decide)
  · simp only [hread, Option.bind_eq_bind, Option.bind_some, objectOf_some, cut]

end Brackets

mutual

/-- The fuel is twice the number of characters: a value or an item, and what it is part of. -/
theorem readValue_render : ∀ (json : Json) {fuel depth : Nat} {rest : List Char}, json.Proper →
    2 * json.render.toList.length ≤ fuel → Ends rest →
    readValue fuel depth (json.render.toList ++ rest) = some (json.cut depth, rest)
  | json, 0, _, _, hproper, hfuel, _ => by
    obtain ⟨c, cs, hcs, -⟩ := exists_render_eq_cons json hproper
    rw [hcs] at hfuel
    exact absurd hfuel (by simp)
  | null, fuel + 1, _, _, _, _, _ => rfl
  | bool true, fuel + 1, _, _, _, _, _ => rfl
  | bool false, fuel + 1, _, _, _, _, _ => rfl
  | text s, fuel + 1, _, _, _, _, _ => readValue_text s _ _ _
  | number (.integer n), fuel + 1, _, _, hproper, _, hrest => by
    obtain ⟨hn, hlt⟩ := hproper
    obtain ⟨n, rfl⟩ := Int.eq_ofNat_of_zero_le hn
    rw [render_count_toList]
    exact readValue_count (Int.ofNat_lt.mp hlt) hrest _ _
  | number (.real _), _, _, _, hproper, _, _ => hproper.elim
  | unreadable, _, _, _, hproper, _, _ => hproper.elim
  | array [], fuel + 1, _, _, _, _, _ => readValue_array_nil _ _ _
  | array (item :: items), fuel + 1, depth, rest, hproper, hfuel, _ => by
    have hitems := proper_array_iff.mp hproper
    rw [render_array_toList, List.length_cons, List.length_append] at hfuel
    exact readValue_array (hitems item List.mem_cons_self)
      (readItems_render (item :: items) (List.cons_ne_nil _ _) hitems (by omega))
  | object [], fuel + 1, _, _, _, _, _ => readValue_object_nil _ _ _
  | object (entry :: entries), fuel + 1, depth, rest, hproper, hfuel, _ => by
    rw [render_object_toList, List.length_cons, List.length_append] at hfuel
    exact readValue_object
      (readEntries_render (entry :: entries) (List.cons_ne_nil _ _) (proper_object_iff.mp hproper).2
        (by omega))

theorem readItems_render : ∀ (items : List Json) {fuel depth : Nat} {rest : List Char}, items ≠ [] →
    (∀ item ∈ items, item.Proper) → 2 * (itemChars items).length < fuel →
    readItems fuel depth (itemChars items ++ ']' :: rest) = some (cutItems depth items, rest)
  | [], _, _, _, hne, _, _ => absurd rfl hne
  | _ :: _, 0, _, _, _, _, hfuel => absurd hfuel (Nat.not_lt_zero _)
  | [item], fuel + 1, depth, rest, _, hproper, hfuel => by
    have hchars : itemChars [item] = item.render.toList := by simp [itemChars]
    rw [hchars] at hfuel ⊢
    rw [readItems, readValue_render item (hproper item List.mem_cons_self) (by omega) (ends_bracket rest)]
    rfl
  | item :: next :: items, fuel + 1, depth, rest, _, hproper, hfuel => by
    obtain ⟨hitem, hitems⟩ := List.forall_mem_cons.mp hproper
    rw [itemChars_cons, List.length_append, List.length_cons] at hfuel
    have hrest : readItems fuel depth (itemChars (next :: items) ++ ']' :: rest) =
        some (cutItems depth (next :: items), rest) :=
      readItems_render (next :: items) (List.cons_ne_nil _ _) hitems (by omega)
    rw [itemChars_cons, List.append_assoc, List.cons_append, readItems,
      readValue_render item hitem (by omega) (ends_comma _)]
    simp only [Option.bind_eq_bind, Option.bind_some, skipBlanks_cons (c := ',') rfl, hrest]
    rfl

theorem readEntries_render : ∀ (entries : List (String × Json)) {fuel depth : Nat}
    {rest : List Char}, entries ≠ [] → (∀ e ∈ entries, e.2.Proper) →
    2 * (entriesChars entries).length < fuel →
    readEntries fuel depth (entriesChars entries ++ '\x7d' :: rest) =
      some ((cutEntries depth entries).map fun e => (some e.1, e.2), rest)
  | [], _, _, _, hne, _, _ => absurd rfl hne
  | _ :: _, 0, _, _, _, _, hfuel => absurd hfuel (Nat.not_lt_zero _)
  | [(name, value)], fuel + 1, depth, rest, _, hproper, hfuel => by
    have hchars : entriesChars [(name, value)] = entryChars (name, value) := by simp [entriesChars]
    have hlength := length_render_lt_entryChars name value
    rw [hchars] at hfuel ⊢
    rw [readEntries_entry,
      readValue_render value (hproper _ List.mem_cons_self) (by omega) (ends_brace rest)]
    rfl
  | (name, value) :: next :: entries, fuel + 1, depth, rest, _, hproper, hfuel => by
    obtain ⟨hvalue, hentries⟩ := List.forall_mem_cons.mp hproper
    have hlength := length_render_lt_entryChars name value
    rw [entriesChars_cons, List.length_append, List.length_cons] at hfuel
    have hrest : readEntries fuel depth (entriesChars (next :: entries) ++ '\x7d' :: rest) =
        some ((cutEntries depth (next :: entries)).map fun e => (some e.1, e.2), rest) :=
      readEntries_render (next :: entries) (List.cons_ne_nil _ _) hentries (by omega)
    rw [entriesChars_cons, List.append_assoc, List.cons_append, readEntries_entry,
      readValue_render value hvalue (by omega) (ends_comma _)]
    simp only [Option.bind_some, skipBlanks_cons (c := ',') rfl, hrest]
    rfl

end

/-- Reading undoes writing, but for the parts of the document that are nested too deep. -/
theorem ofText?_render {json : Json} (hproper : json.Proper) :
    Json.ofText? json.render = some (json.cut 0) := by
  have hread : readValue (2 * json.render.toList.length + 2) 0 (json.render.toList ++ []) =
      some (json.cut 0, []) := readValue_render json hproper (Nat.le_add_right _ 2) ends_nil
  rw [List.append_nil] at hread
  simp only [Json.ofText?, hread, Option.bind_eq_bind, Option.bind_some]
  rfl

theorem ofText?_render_of_depth_le {json : Json} (hproper : json.Proper) (h : json.depth ≤ maxDepth) :
    Json.ofText? json.render = some json := by
  rw [ofText?_render hproper, cut_eq_self json (by omega)]

end Json

end PropertyFinance
