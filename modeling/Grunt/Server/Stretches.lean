import Grunt.Server.EmoteTokens

/-! # What the replacement of emotes leaves

The output is made of what was put in for tokens and of the stretches between.
A token shares its colons with its neighbours, so a name of the map may be left
in a stretch.
-/

namespace Grunt.Server

open Foundation

/-! ## Stretches -/

def Segment.isReplaced (table : EmoteTable) : Segment → Bool
  | .plain _ => false
  | .token name => (table name).isSome

def stretchesOf (table : EmoteTable) (parts : List Segment) : List ByteString :=
  (parts.splitOnP (Segment.isReplaced table)).map fun kept =>
    kept.flatMap (Segment.rendered (EmoteMap.ofTable table))

def stretches (table : EmoteTable) (text : ByteString) : List ByteString :=
  stretchesOf table (segments text)

def replacements (table : EmoteTable) (text : ByteString) : List ByteString :=
  ((segments text).filter (Segment.isReplaced table)).map
    (Segment.rendered (EmoteMap.ofTable table))

def interleave : List ByteString → List ByteString → ByteString
  | [], _ => []
  | stretch :: _, [] => stretch
  | stretch :: stretches, text :: texts => stretch ++ text ++ interleave stretches texts

def written (name : ByteString) : ByteString := colonByte :: name ++ [colonByte]

def ShowsToken (table : EmoteTable) (stretch : ByteString) : Prop :=
  ∃ name, (table name).isSome ∧ written name <:+: stretch

def NoneLeft (table : EmoteTable) (text : ByteString) : Prop :=
  ∀ stretch ∈ stretches table text, ¬ ShowsToken table stretch

def EmoteTable.NamesOnly (table : EmoteTable) : Prop :=
  ∀ name, (table name).isSome → name ≠ [] ∧ ∀ byte ∈ name, isNameByte byte = true

section StretchesOf

variable {table : EmoteTable}

theorem stretchesOf_ne_nil (parts : List Segment) : stretchesOf table parts ≠ [] := by
  rw [stretchesOf, Ne, List.map_eq_nil_iff]
  exact List.splitOnP_ne_nil _ parts

theorem stretchesOf_kept {segment : Segment} (kept : segment.isReplaced table = false)
    (rest : List Segment) :
    stretchesOf table (segment :: rest) =
      (stretchesOf table rest).modifyHead (segment.rendered (EmoteMap.ofTable table) ++ ·) := by
  rw [stretchesOf, List.splitOnP_cons_eq_if_modifyHead, if_neg (by simp [kept]), stretchesOf]
  cases rest.splitOnP (Segment.isReplaced table) <;> simp

theorem stretchesOf_replaced {segment : Segment} (replaced : segment.isReplaced table = true)
    (rest : List Segment) :
    stretchesOf table (segment :: rest) = [] :: stretchesOf table rest := by
  rw [stretchesOf, List.splitOnP_cons_eq_if_modifyHead, if_pos replaced]
  rfl

theorem stretchesOf_plainByte (byte : UInt8) (parts : List Segment) :
    stretchesOf table (plainByte byte parts) =
      (stretchesOf table parts).modifyHead ((htmlEscapeTable byte).getD [byte] ++ ·) := by
  unfold plainByte
  split
  case h_1 run rest =>
    rw [stretchesOf_kept rfl, stretchesOf_kept rfl, List.modifyHead_modifyHead]
    congr 1
    funext stretch
    rw [Function.comp_apply, Segment.rendered, Segment.rendered, Bytes.escape_cons,
      List.append_assoc]
  case h_2 =>
    rw [stretchesOf_kept rfl, Segment.rendered, Bytes.escape_cons, Bytes.escape_nil,
      List.append_nil]

theorem interleave_modifyHead (piece : ByteString) {kept : List ByteString}
    (nonempty : kept ≠ []) (texts : List ByteString) :
    interleave (kept.modifyHead (piece ++ ·)) texts = piece ++ interleave kept texts := by
  cases kept with
  | nil => exact absurd rfl nonempty
  | cons stretch kept =>
      cases texts with
      | nil => rfl
      | cons text texts => simp [interleave]

end StretchesOf

theorem replaceEmotes_eq_interleave (table : EmoteTable) (text : ByteString) :
    replaceEmotes table text = interleave (stretches table text) (replacements table text) := by
  rw [replaceEmotes_eq, stretches, replacements]
  induction segments text with
  | nil => rfl
  | cons segment rest induction =>
      rw [List.flatMap_cons, induction]
      cases replaced : segment.isReplaced table with
      | true =>
          rw [stretchesOf_replaced replaced, List.filter_cons_of_pos replaced]
          rfl
      | false =>
          rw [stretchesOf_kept replaced, List.filter_cons_of_neg (by simp [replaced]),
            interleave_modifyHead _ (stretchesOf_ne_nil rest)]

/-! ## Stretches of a text, from its front -/

section Stretches

variable {table : EmoteTable} {text name after : ByteString}

theorem stretches_nil : stretches table [] = [[]] := by
  rw [stretches, segments]
  rfl

theorem stretches_known (found : tokenAt text = some (name, after))
    (known : (table name).isSome) :
    stretches table text = [] :: stretches table after := by
  have replaced : (Segment.token name).isReplaced table = true := known
  rw [stretches, segments_of_token found, stretchesOf_replaced replaced]
  rfl

theorem stretches_unknown (found : tokenAt text = some (name, after))
    (unknown : table name = none) :
    stretches table text = (stretches table after).modifyHead (written name ++ ·) := by
  have kept : (Segment.token name).isReplaced table = false := by
    rw [Segment.isReplaced, unknown]
    rfl
  have same : (Segment.token name).rendered (EmoteMap.ofTable table) = written name := by
    rw [← tokenValue_eq (tokenAt_eq_some_iff.mp found).2.2, tokenValue, unknown]
    rfl
  rw [stretches, segments_of_token found, stretchesOf_kept kept, same]
  rfl

theorem stretches_plain {byte : UInt8} {rest : ByteString}
    (unfound : tokenAt (byte :: rest) = none) :
    stretches table (byte :: rest) =
      (stretches table rest).modifyHead ((htmlEscapeTable byte).getD [byte] ++ ·) := by
  rw [stretches, segments_of_plain unfound, stretchesOf_plainByte]
  rfl

end Stretches

/-! ## What a stretch begins with -/

def firstStretch (table : EmoteTable) (text : ByteString) : ByteString :=
  (stretches table text).headD []

def OpensKnown (table : EmoteTable) (text : ByteString) : Prop :=
  ∃ name after, tokenAt text = some (name, after) ∧ (table name).isSome

section First

variable {table : EmoteTable} {text name after : ByteString} {byte other : UInt8}

theorem headD_modifyHead (piece : ByteString) (text : ByteString) :
    ((stretches table text).modifyHead (piece ++ ·)).headD [] =
      piece ++ firstStretch table text := by
  have nonempty : stretches table text ≠ [] := stretchesOf_ne_nil _
  rw [firstStretch]
  cases whole : stretches table text with
  | nil => exact absurd whole nonempty
  | cons stretch rest => rfl

theorem firstStretch_of_opens (opens : OpensKnown table text) : firstStretch table text = [] := by
  rcases opens with ⟨name, after, found, known⟩
  rw [firstStretch, stretches_known found known]
  rfl

theorem firstStretch_unknown (found : tokenAt text = some (name, after))
    (unknown : table name = none) :
    firstStretch table text = written name ++ firstStretch table after := by
  rw [firstStretch, stretches_unknown found unknown, headD_modifyHead]

theorem firstStretch_plain {rest : ByteString} (unfound : tokenAt (byte :: rest) = none) :
    firstStretch table (byte :: rest) =
      (htmlEscapeTable byte).getD [byte] ++ firstStretch table rest := by
  rw [firstStretch, stretches_plain unfound, headD_modifyHead]

theorem not_opens_of_plain (unfound : tokenAt text = none) : ¬ OpensKnown table text := by
  rintro ⟨name, after, found, -⟩
  rw [unfound] at found
  cases found

theorem not_opens_of_unknown (found : tokenAt text = some (name, after))
    (unknown : table name = none) : ¬ OpensKnown table text := by
  rintro ⟨other, rest, same, known⟩
  rw [found] at same
  cases same
  rw [unknown] at known
  cases known

theorem cons_prefix_escaped {text kept : ByteString}
    (inside : isNameByte other = true ∨ other = colonByte) :
    other :: text <+: (htmlEscapeTable byte).getD [byte] ++ kept ↔
      byte = other ∧ text <+: kept := by
  cases found : htmlEscapeTable byte with
  | none =>
      rw [Option.getD_none, List.singleton_append, List.cons_prefix_cons]
      exact and_congr_left fun _ => eq_comm
  | some piece =>
      rcases head_of_htmlEscapeTable found with ⟨head, tail, rfl, unnamed, uncolon⟩
      rw [Option.getD_some, List.cons_append, List.cons_prefix_cons]
      have first : other ≠ head := by
        rintro rfl
        rcases inside with named | colon
        · rw [unnamed] at named
          cases named
        · exact uncolon colon
      have second : byte ≠ other := by
        rintro rfl
        rcases inside with named | rfl
        · rw [htmlEscapeTable_of_isNameByte named] at found
          cases found
        · rw [htmlEscapeTable_colonByte] at found
          cases found
      simp only [first, second, false_and]

/-- A text and the first stretch begin with the same byte of a token, where the
text is not replaced from its front. -/
theorem cons_prefix_firstStretch (inside : isNameByte other = true ∨ other = colonByte)
    (plain : tokenAt (byte :: text) = none) :
    other :: name <+: firstStretch table (byte :: text) ↔
      byte = other ∧ name <+: firstStretch table text := by
  rw [firstStretch_plain plain, cons_prefix_escaped inside]

/-- A byte of a name stands at the front of the first stretch just when it stands
at the front of the text. -/
theorem name_prefix_firstStretch_iff (named : isNameByte other = true) :
    other :: name <+: firstStretch table text ↔
      ∃ rest, text = other :: rest ∧ name <+: firstStretch table rest := by
  have different : other ≠ colonByte := by
    rintro rfl
    rw [colonByte_not_name] at named
    cases named
  cases text with
  | nil => simp [firstStretch, stretches_nil]
  | cons byte text =>
      cases found : tokenAt (byte :: text) with
      | none =>
          rw [cons_prefix_firstStretch (.inl named) found]
          constructor
          · rintro ⟨rfl, begins⟩
            exact ⟨text, rfl, begins⟩
          · rintro ⟨rest, same, begins⟩
            cases same
            exact ⟨rfl, begins⟩
      | some token =>
          -- a token begins with a colon, and so does what is left of it
          rcases token with ⟨token, after⟩
          cases (tokenAt_eq_some_iff.mp found).1
          constructor
          · intro begins
            cases known : table token with
            | none =>
                rw [firstStretch_unknown found known] at begins
                exact absurd (List.cons_prefix_cons.mp begins).1 different
            | some emote =>
                rw [firstStretch_of_opens ⟨token, after, found, by simp [known]⟩] at begins
                exact absurd begins (by simp)
          · rintro ⟨rest, same, -⟩
            exact absurd (List.cons.inj same).1.symm different

/-- A colon stands at the front of the first stretch just when it stands at the
front of the text and is not that of a token that is replaced. -/
theorem colon_prefix_firstStretch_iff :
    [colonByte] <+: firstStretch table text ↔
      ∃ rest, text = colonByte :: rest ∧ ¬ OpensKnown table (colonByte :: rest) := by
  cases text with
  | nil => simp [firstStretch, stretches_nil]
  | cons byte text =>
      cases found : tokenAt (byte :: text) with
      | none =>
          have kept : ¬ OpensKnown table (byte :: text) := not_opens_of_plain found
          rw [cons_prefix_firstStretch (.inr rfl) found]
          constructor
          · rintro ⟨rfl, -⟩
            exact ⟨text, rfl, kept⟩
          · rintro ⟨rest, same, -⟩
            cases same
            exact ⟨rfl, List.nil_prefix⟩
      | some token =>
          rcases token with ⟨name, after⟩
          have front := (tokenAt_eq_some_iff.mp found).1
          cases known : table name with
          | none =>
              have kept := not_opens_of_unknown found known
              rw [firstStretch_unknown found known]
              constructor
              · intro _
                cases front
                exact ⟨_, rfl, kept⟩
              · intro _
                exact ⟨name ++ [colonByte] ++ firstStretch table after, by simp [written]⟩
          | some emote =>
              have opens : OpensKnown table (byte :: text) :=
                ⟨name, after, found, by simp [known]⟩
              rw [firstStretch_of_opens opens]
              constructor
              · rintro ⟨rest, impossible⟩
                cases impossible
              · rintro ⟨rest, same, kept⟩
                cases same
                exact absurd opens kept

/-- The rest of a token is in the first stretch if it is in the text, and its
colon is not that of a token that is replaced. -/
theorem prefix_firstStretch_iff (valid : ∀ byte ∈ name, isNameByte byte = true) :
    name ++ [colonByte] <+: firstStretch table text ↔
      ∃ rest, text = name ++ colonByte :: rest ∧ ¬ OpensKnown table (colonByte :: rest) := by
  induction name generalizing text with
  | nil => exact colon_prefix_firstStretch_iff
  | cons other name induction =>
      have named := valid other List.mem_cons_self
      have later : ∀ byte ∈ name, isNameByte byte = true :=
        fun byte member => valid byte (List.mem_cons_of_mem other member)
      rw [List.cons_append, name_prefix_firstStretch_iff named]
      constructor
      · rintro ⟨text, rfl, begins⟩
        obtain ⟨rest, rfl, kept⟩ := (induction later).mp begins
        exact ⟨rest, rfl, kept⟩
      · rintro ⟨rest, rfl, kept⟩
        exact ⟨_, rfl, (induction later).mpr ⟨rest, rfl, kept⟩⟩

end First

/-! ## What is left -/

/-- The end of a token that a text begins with, as it is left. -/
def Shadowed (table : EmoteTable) (after : ByteString) : Prop :=
  ∃ name rest, (table name).isSome ∧ after = name ++ colonByte :: rest ∧
    ¬ OpensKnown table (colonByte :: rest)

/-- The leftmost tokens that do not overlap, each with what follows it. -/
inductive Takes : ByteString → ByteString → ByteString → Prop
  | here {text name after : ByteString} (found : tokenAt text = some (name, after)) :
      Takes text name after
  | later {text front rest name after : ByteString} (found : tokenAt text = some (front, rest))
      (takes : Takes rest name after) : Takes text name after
  | skip {byte : UInt8} {rest name after : ByteString} (unfound : tokenAt (byte :: rest) = none)
      (takes : Takes rest name after) : Takes (byte :: rest) name after

section Left

variable {table : EmoteTable} {text name after : ByteString} {byte : UInt8}

def Left (table : EmoteTable) (text : ByteString) : Prop :=
  ∃ stretch ∈ stretches table text, ShowsToken table stretch

theorem noneLeft_iff_not_left : NoneLeft table text ↔ ¬ Left table text := by
  simp only [NoneLeft, Left, not_exists, not_and]

theorem not_shows_nil : ¬ ShowsToken table [] := by
  rintro ⟨name, -, inside⟩
  cases List.infix_nil.mp inside

theorem infix_append_iff {piece text pattern : ByteString} (free : colonByte ∉ piece) :
    colonByte :: pattern <:+: piece ++ text ↔ colonByte :: pattern <:+: text := by
  induction piece with
  | nil => rfl
  | cons byte piece induction =>
      rw [List.mem_cons, not_or] at free
      rw [List.cons_append, List.infix_cons_iff, induction free.2, List.cons_prefix_cons]
      simp only [free.1, false_and, false_or]

theorem left_modifyHead {piece : ByteString} {rest : ByteString} {more : Prop}
    (front : stretches table text = (stretches table rest).modifyHead (piece ++ ·))
    (first : ShowsToken table (piece ++ firstStretch table rest) ↔
      more ∨ ShowsToken table (firstStretch table rest)) :
    Left table text ↔ more ∨ Left table rest := by
  have nonempty : stretches table rest ≠ [] := stretchesOf_ne_nil _
  rw [Left, Left, front]
  rw [firstStretch] at first
  cases whole : stretches table rest with
  | nil => exact absurd whole nonempty
  | cons stretch others =>
      rw [whole, List.headD_cons] at first
      simp only [List.modifyHead_cons, List.mem_cons, exists_eq_or_imp, first, or_assoc]

theorem shows_unknown (names : table.NamesOnly) (found : tokenAt text = some (name, after))
    (unknown : table name = none) :
    ShowsToken table (written name ++ firstStretch table after) ↔
      Shadowed table after ∨ ShowsToken table (firstStretch table after) := by
  have nonempty := (tokenAt_eq_some_iff.mp found).2.1
  have valid := (tokenAt_eq_some_iff.mp found).2.2
  have parts : ∀ known, (table known).isSome →
      (written known <:+: written name ++ firstStretch table after ↔
        known ++ [colonByte] <+: firstStretch table after ∨
          written known <:+: firstStretch table after) := by
    intro known stands
    have front : ¬ written known <+: written name ++ firstStretch table after := by
      rintro ⟨rest, same⟩
      have asKnown : tokenAt (written known ++ rest) = some (known, rest) :=
        tokenAt_eq_some_iff.mpr ⟨by simp [written], names known stands⟩
      have asName : tokenAt (written name ++ firstStretch table after) =
          some (name, firstStretch table after) :=
        tokenAt_eq_some_iff.mpr ⟨by simp [written], nonempty, valid⟩
      rw [same, asName] at asKnown
      cases asKnown
      rw [unknown] at stands
      cases stands
    have whole : written name ++ firstStretch table after =
        colonByte :: (name ++ colonByte :: firstStretch table after) := by simp [written]
    rw [whole] at front ⊢
    rw [List.infix_cons_iff, or_iff_right front]
    rw [written, List.cons_append, infix_append_iff (colonByte_not_mem_name valid),
      List.infix_cons_iff, List.cons_prefix_cons, and_iff_right rfl]
  constructor
  · rintro ⟨known, stands, inside⟩
    rcases (parts known stands).mp inside with begins | inside
    · rcases (prefix_firstStretch_iff (names known stands).2).mp begins with ⟨rest, same, kept⟩
      exact .inl ⟨known, rest, stands, same, kept⟩
    · exact .inr ⟨known, stands, inside⟩
  · rintro (⟨known, rest, stands, same, kept⟩ | ⟨known, stands, inside⟩)
    · have begins := (prefix_firstStretch_iff (names known stands).2).mpr ⟨rest, same, kept⟩
      exact ⟨known, stands, (parts known stands).mpr (.inl begins)⟩
    · exact ⟨known, stands, (parts known stands).mpr (.inr inside)⟩

theorem shows_plain (names : table.NamesOnly) (unfound : tokenAt (byte :: text) = none) :
    ShowsToken table ((htmlEscapeTable byte).getD [byte] ++ firstStretch table text) ↔
      ShowsToken table (firstStretch table text) := by
  apply exists_congr
  intro known
  apply and_congr_right
  intro stands
  rw [written, List.cons_append]
  by_cases colon : byte = colonByte
  · subst colon
    have front : ¬ known ++ [colonByte] <+: firstStretch table text := by
      intro begins
      rcases (prefix_firstStretch_iff (names known stands).2).mp begins with ⟨rest, rfl, -⟩
      have token : tokenAt (colonByte :: (known ++ colonByte :: rest)) = some (known, rest) :=
        tokenAt_eq_some_iff.mpr ⟨rfl, names known stands⟩
      rw [token] at unfound
      cases unfound
    rw [htmlEscapeTable_colonByte, Option.getD_none, List.singleton_append, List.infix_cons_iff,
      List.cons_prefix_cons, and_iff_right rfl, or_iff_right front]
  · apply infix_append_iff
    cases found : htmlEscapeTable byte with
    | none => exact fun member => colon (List.mem_singleton.mp member).symm
    | some piece => exact colonByte_not_mem_htmlEscapeTable found

theorem takes_token (found : tokenAt text = some (name, after)) {taken rest : ByteString} :
    Takes text taken rest ↔ (taken = name ∧ rest = after) ∨ Takes after taken rest := by
  constructor
  · intro takes
    cases takes with
    | here again =>
        rw [found] at again
        cases again
        exact .inl ⟨rfl, rfl⟩
    | later again takes =>
        rw [found] at again
        cases again
        exact .inr takes
    | skip unfound =>
        rw [found] at unfound
        cases unfound
  · rintro (⟨rfl, rfl⟩ | takes)
    · exact .here found
    · exact .later found takes

theorem takes_plain (unfound : tokenAt (byte :: text) = none) {taken rest : ByteString} :
    Takes (byte :: text) taken rest ↔ Takes text taken rest := by
  constructor
  · intro takes
    cases takes with
    | here found =>
        rw [unfound] at found
        cases found
    | later found =>
        rw [unfound] at found
        cases found
    | skip _ takes => exact takes
  · intro takes
    exact .skip unfound takes

theorem left_iff (names : table.NamesOnly) :
    Left table text ↔ ∃ name after, Takes text name after ∧ table name = none ∧
      Shadowed table after := by
  induction text using segments_induction with
  | nil =>
      constructor
      · rintro ⟨stretch, member, shows⟩
        rw [stretches_nil, List.mem_singleton] at member
        rw [member] at shows
        exact absurd shows not_shows_nil
      · rintro ⟨name, after, takes, -⟩
        cases takes with
        | here found => cases found
        | later found => cases found
  | token text name after found induction =>
      simp only [takes_token found]
      cases known : table name with
      | some emote =>
          have same : Left table text ↔ Left table after := by
            rw [Left, stretches_known found (by simp [known])]
            simp [Left, not_shows_nil]
          rw [same, induction]
          constructor
          · rintro ⟨taken, rest, takes, unknown, shadowed⟩
            exact ⟨taken, rest, .inr takes, unknown, shadowed⟩
          · rintro ⟨taken, rest, ⟨rfl, rfl⟩ | takes, unknown, shadowed⟩
            · rw [known] at unknown
              cases unknown
            · exact ⟨taken, rest, takes, unknown, shadowed⟩
      | none =>
          rw [left_modifyHead (stretches_unknown found known) (shows_unknown names found known),
            induction]
          constructor
          · rintro (shadowed | ⟨taken, rest, takes, unknown, shadowed⟩)
            · exact ⟨name, after, .inl ⟨rfl, rfl⟩, known, shadowed⟩
            · exact ⟨taken, rest, .inr takes, unknown, shadowed⟩
          · rintro ⟨taken, rest, ⟨rfl, rfl⟩ | takes, unknown, shadowed⟩
            · exact .inl shadowed
            · exact .inr ⟨taken, rest, takes, unknown, shadowed⟩
  | plain byte rest unfound induction =>
      have same : Left table (byte :: rest) ↔ False ∨ Left table rest := by
        apply left_modifyHead (stretches_plain unfound)
        rw [false_or]
        exact shows_plain names unfound
      rw [same, false_or, induction]
      simp only [takes_plain unfound]

end Left

/-! ## The tables of the server -/

theorem namesOnly_builtin : EmoteTable.builtin.NamesOnly := by
  intro name known
  unfold EmoteTable.builtin at known
  split at known
  case isTrue smile =>
    subst smile
    decide +kernel
  case isFalse =>
    split at known
    case isTrue heart =>
      subst heart
      decide +kernel
    case isFalse => cases known

theorem namesOnly_scanImageEmotes {table : EmoteTable} (names : table.NamesOnly)
    (entries : Option (List DirEntry)) : (scanImageEmotes entries table).NamesOnly := by
  cases entries with
  | none => exact names
  | some entries =>
      intro name known
      dsimp only [scanImageEmotes] at known
      split at known
      case h_1 emote loads =>
        rcases image_of_loadedEmotes loads with ⟨-, -, image, -, rfl, -⟩
        exact ⟨image.1.nonempty, image.1.valid⟩
      case h_2 =>
        split at known
        · exact names name known
        · cases known

theorem namesOnly_scanned (scans : List (Option (List DirEntry))) :
    (EmoteTable.scanned scans).NamesOnly := by
  induction scans using List.reverseRecOn with
  | nil => exact namesOnly_builtin
  | append_singleton scans entries induction =>
      rw [EmoteTable.scanned, List.foldl_append]
      exact namesOnly_scanImageEmotes induction entries

/-! ## The main result -/

/-- Nothing is left just when no unknown token that is taken stands before the
end of a token of the table. The tables of the server hold names only. -/
theorem noneLeft_iff (scans : List (Option (List DirEntry))) (table : EmoteTable)
    (text : ByteString) :
    (EmoteTable.scanned scans).NamesOnly ∧
      (table.NamesOnly →
        (NoneLeft table text ↔ ∀ name after, Takes text name after → table name = none →
          ¬ Shadowed table after)) := by
  constructor
  · exact namesOnly_scanned scans
  · intro names
    rw [noneLeft_iff_not_left, left_iff names]
    simp only [not_exists, not_and]

theorem time_noneLeft : NoneLeft .builtin (utf8 "2:30: ok") := by
  apply ((noneLeft_iff [] .builtin (utf8 "2:30: ok")).2 namesOnly_builtin).mpr
  intro name after takes _
  change Takes (50 :: utf8 ":30: ok") name after at takes
  have token : tokenAt (utf8 ":30: ok") = some (utf8 "30", utf8 " ok") := by decide
  rw [takes_plain (by decide), takes_token token] at takes
  rcases takes with ⟨-, rfl⟩ | takes
  · rintro ⟨known, rest, -, split, -⟩
    have colon : colonByte ∈ utf8 " ok" := by
      rw [split]
      exact List.mem_append_right known (List.mem_cons_self ..)
    exact absurd colon (by decide)
  · change Takes (32 :: 111 :: 107 :: []) name after at takes
    rw [takes_plain (by decide), takes_plain (by decide), takes_plain (by decide)] at takes
    cases takes with
    | here found => cases found
    | later found takes => cases found

/-- The time takes the colon of the emote behind it. -/
theorem timeBeforeSmile_left :
    ¬ ∀ table : EmoteTable, table.NamesOnly → ∀ text, NoneLeft table text := by
  intro all
  apply noneLeft_iff_not_left.mp (all .builtin namesOnly_builtin (utf8 "12:30:smile:"))
  apply (left_iff namesOnly_builtin).mpr
  exact ⟨utf8 "30", utf8 "smile:", .skip (by decide) (.skip (by decide) (.here (by decide))),
    by decide, utf8 "smile", [], by decide, by decide, fun ⟨_, _, found, _⟩ => by cases found⟩

end Grunt.Server
