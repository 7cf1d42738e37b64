import Grunt.Server.Browsing

/-! # The addresses of avatars

The address that the templates write for the avatar of a user, and the user
whose avatar is asked for when a browser follows it.
-/

namespace Grunt.Server

open Foundation

/-! ## The normalizer -/

section Normalizer

theorem isHex_eq (byte : UInt8) : isHex byte = (Path.unhex byte).isSome := by
  have values : ∀ value : Fin 256,
      isHex (UInt8.ofFin value) = (Path.unhex (UInt8.ofFin value)).isSome := by
    decide +kernel
  exact values byte.toFin

theorem isURLByte_of_isHex {byte : UInt8} (hex : (Path.unhex byte).isSome = true) :
    isURLByte byte = true ∧ byte ≠ Path.percent := by
  have values : ∀ value : Fin 256, (Path.unhex (UInt8.ofFin value)).isSome = true →
      isURLByte (UInt8.ofFin value) = true ∧ UInt8.ofFin value ≠ Path.percent := by
    decide +kernel
  exact values byte.toFin hex

theorem isURLByte_percent : isURLByte Path.percent = false := by decide

theorem keepsURLByte_eq (byte : UInt8) (rest : ByteString) :
    keepsURLByte byte rest = (isURLByte byte || (byte = Path.percent && Path.hexPair rest)) := by
  unfold keepsURLByte Path.hexPair
  match rest with
  | [] => rfl
  | [_] => rfl
  | first :: second :: _ =>
      simp only [isHex_eq]
      rfl

theorem urlNormalizer_of_isURLByte {byte : UInt8} (kept : isURLByte byte = true)
    (rest : ByteString) : urlNormalizer (byte :: rest) = byte :: urlNormalizer rest := by
  rw [urlNormalizer, keepsURLByte_eq, kept, Bool.true_or, if_pos rfl]
  rfl

theorem urlNormalizer_pair {first second : UInt8} {rest : ByteString}
    (pair : Path.hexPair (first :: second :: rest) = true) :
    urlNormalizer (Path.percent :: first :: second :: rest) =
      Path.percent :: first :: second :: urlNormalizer rest := by
  have both := Bool.and_eq_true_iff.mp pair
  have kept : keepsURLByte Path.percent (first :: second :: rest) = true := by
    rw [keepsURLByte_eq, pair]
    rfl
  rw [urlNormalizer, if_pos kept, urlNormalizer_of_isURLByte (isURLByte_of_isHex both.1).1,
    urlNormalizer_of_isURLByte (isURLByte_of_isHex both.2).1]
  rfl

theorem urlNormalizer_encodes {byte : UInt8} {rest : ByteString}
    (foreign : isURLByte byte = false)
    (single : ¬ (byte = Path.percent ∧ Path.hexPair rest = true)) :
    ∃ first second high low, Path.unhex first = some high ∧ Path.unhex second = some low ∧
      high * 16 + low = byte ∧
      urlNormalizer (byte :: rest) = Path.percent :: first :: second :: urlNormalizer rest := by
  have values : ∀ value : Fin 256,
      Path.unhex (Bytes.hexDigit (UInt8.ofFin value / 16)) = some (UInt8.ofFin value / 16) ∧
      Path.unhex (Bytes.hexDigit (UInt8.ofFin value % 16)) = some (UInt8.ofFin value % 16) ∧
      UInt8.ofFin value / 16 * 16 + UInt8.ofFin value % 16 = UInt8.ofFin value := by
    decide +kernel
  rcases values byte.toFin with ⟨isHigh, isLow, whole⟩
  have encoded : keepsURLByte byte rest = false := by
    rw [keepsURLByte_eq, foreign, Bool.false_or]
    apply Bool.eq_false_iff.mpr
    intro both
    have parts := Bool.and_eq_true_iff.mp both
    exact single ⟨of_decide_eq_true parts.1, parts.2⟩
  refine ⟨_, _, _, _, isHigh, isLow, whole, ?_⟩
  rw [urlNormalizer, encoded, if_neg Bool.false_ne_true]
  rfl

theorem decodedLength_urlNormalizer (text : ByteString) :
    Path.decodedLength (urlNormalizer text) = Path.decodedLength text := by
  induction text using Path.decodedLength.induct with
  | case1 => rfl
  | case2 byte rest both induction =>
      rcases both with ⟨rfl, pair⟩
      rcases Path.exists_of_hexPair pair with ⟨first, second, tail, high, low, rfl, one, two⟩
      have isHigh : (Path.unhex first).isSome = true := by rw [one]; rfl
      have isLow : (Path.unhex second).isSome = true := by rw [two]; rfl
      rw [urlNormalizer_pair pair, Path.decodedLength_pair isHigh isLow,
        Path.decodedLength_pair isHigh isLow]
      exact congrArg (· + 1) induction
  | case3 byte rest single induction =>
      have length : Path.decodedLength (byte :: rest) = Path.decodedLength rest + 1 := by
        rw [Path.decodedLength, if_neg single]
      cases kept : isURLByte byte with
      | true =>
          have plain : byte ≠ Path.percent := by
            rintro rfl
            rw [isURLByte_percent] at kept
            cases kept
          rw [urlNormalizer_of_isURLByte kept, Path.decodedLength_cons_of_ne plain, induction,
            length]
      | false =>
          rcases urlNormalizer_encodes kept single with
            ⟨first, second, high, low, isHigh, isLow, -, encoded⟩
          rw [encoded, Path.decodedLength_pair (by rw [isHigh]; rfl) (by rw [isLow]; rfl),
            induction, length]

theorem unescape_urlNormalizer {text : ByteString} (free : Path.EscapeFree text) :
    Path.unescape (urlNormalizer text) = some text := by
  induction text with
  | nil => rfl
  | cons byte rest induction =>
      have parts := Path.escapeFree_cons.mp free
      have later := induction parts.2
      cases kept : isURLByte byte with
      | true =>
          have plain : byte ≠ Path.percent := by
            rintro rfl
            rw [isURLByte_percent] at kept
            cases kept
          rw [urlNormalizer_of_isURLByte kept, Path.unescape_cons_of_ne plain, later]
          rfl
      | false =>
          rcases urlNormalizer_encodes kept parts.1 with
            ⟨first, second, high, low, isHigh, isLow, whole, encoded⟩
          rw [encoded, Path.unescape_pair isHigh isLow, later, whole]
          rfl

theorem mem_encoded {byte head : UInt8} (member : byte ∈ 37 :: Bytes.hexEncode [head]) :
    byte = Path.percent ∨ (Path.unhex byte).isSome = true := by
  have values : ∀ value : Fin 256, ((Bytes.hexEncode [UInt8.ofFin value]).all fun digit =>
      (Path.unhex digit).isSome) = true := by
    decide +kernel
  exact (List.mem_cons.mp member).imp_right (List.all_eq_true.mp (values head.toFin) byte)

theorem isURLByte_of_mem_urlNormalizer {byte : UInt8} {text : ByteString}
    (member : byte ∈ urlNormalizer text) : byte = Path.percent ∨ isURLByte byte = true := by
  induction text with
  | nil => cases member
  | cons head rest induction =>
      rw [urlNormalizer] at member
      rcases List.mem_append.mp member with member | member
      · split at member
        case isTrue kept =>
          rw [List.mem_singleton.mp member]
          rw [keepsURLByte_eq] at kept
          rcases Bool.or_eq_true_iff.mp kept with kept | escape
          · exact .inr kept
          · exact .inl (of_decide_eq_true (Bool.and_eq_true_iff.mp escape).1)
        case isFalse =>
          exact (mem_encoded member).imp_right fun hex => (isURLByte_of_isHex hex).1
      · exact induction member

theorem mem_urlNormalizer {byte : UInt8} (kept : isURLByte byte = true)
    (other : Path.unhex byte = none) (text : ByteString) :
    byte ∈ urlNormalizer text ↔ byte ∈ text := by
  induction text with
  | nil => rfl
  | cons head rest induction =>
      rw [urlNormalizer, List.mem_append, List.mem_cons, induction]
      split
      case isTrue => rw [List.mem_singleton]
      case isFalse encoded =>
        have written : byte ∉ 37 :: Bytes.hexEncode [head] := by
          intro member
          rcases mem_encoded member with rfl | hex
          · rw [isURLByte_percent] at kept
            cases kept
          · rw [other] at hex
            cases hex
        have different : byte ≠ head := by
          rintro rfl
          rw [keepsURLByte_eq, kept] at encoded
          exact encoded rfl
        simp only [written, different]

theorem urlNormalizer_slash (left right : ByteString) :
    urlNormalizer (left ++ Path.slash :: right) =
      urlNormalizer left ++ Path.slash :: urlNormalizer right := by
  induction left with
  | nil => exact urlNormalizer_of_isURLByte (by decide) right
  | cons byte rest induction =>
      have looks : keepsURLByte byte (rest ++ Path.slash :: right) = keepsURLByte byte rest := by
        rw [keepsURLByte_eq, keepsURLByte_eq, Path.hexPair_append (by decide)]
      rw [List.cons_append, urlNormalizer, urlNormalizer, looks, induction, List.append_assoc]

theorem urlNormalizer_intercalate (parts : List ByteString) :
    urlNormalizer ([Path.slash].intercalate parts) =
      [Path.slash].intercalate (parts.map urlNormalizer) := by
  induction parts with
  | nil => rfl
  | cons part rest induction =>
      cases rest with
      | nil => rw [List.intercalate_singleton, List.map_singleton, List.intercalate_singleton]
      | cons next rest =>
          rw [List.map_cons, List.map_cons, List.intercalate_cons_cons,
            List.intercalate_cons_cons, List.append_assoc, List.singleton_append,
            urlNormalizer_slash, induction, List.map_cons, List.append_assoc,
            List.singleton_append]

theorem components_urlNormalizer (text : ByteString) :
    Path.components (urlNormalizer text) = (Path.components text).map urlNormalizer := by
  have whole : ∀ part ∈ (Path.components text).map urlNormalizer, Path.slash ∉ part := by
    intro part member
    rcases List.mem_map.mp member with ⟨origin, inside, rfl⟩
    rw [mem_urlNormalizer (by decide) (by decide)]
    exact Path.slash_not_mem_of_mem_components inside
  have nonempty : (Path.components text).map urlNormalizer ≠ [] := by
    simp [Path.components]
  rw [← Path.components_intercalate nonempty whole, ← urlNormalizer_intercalate]
  unfold Path.components
  rw [List.intercalate_splitOn]

end Normalizer

/-! ## The templates -/

theorem not_mem_htmlEscaper (text : ByteString) :
    Address.quote ∉ htmlEscaper text ∧ (60 : UInt8) ∉ htmlEscaper text := by
  have foreign : ∀ other piece, htmlReplacementTable other = some piece →
      Address.quote ∉ piece ∧ (60 : UInt8) ∉ piece := by
    intro other piece escaped
    unfold htmlReplacementTable at escaped
    split at escaped <;> cases escaped <;> decide
  exact ⟨Bytes.not_mem_escape rfl (fun other piece escaped => (foreign other piece escaped).1) text,
    Bytes.not_mem_escape rfl (fun other piece escaped => (foreign other piece escaped).2) text⟩

theorem decodeReferences_escaped {byte : UInt8} (present : byte ≠ 0) (rest : ByteString) :
    Address.decodeReferences ((htmlReplacementTable byte).getD [byte] ++ rest) =
      byte :: Address.decodeReferences rest := by
  by_cases listed : byte ∈ utf8 "\"&'+<>"
  · have each : ∀ byte ∈ utf8 "\"&'+<>", byte = 34 ∨ byte = 38 ∨ byte = 39 ∨ byte = 43 ∨
        byte = 60 ∨ byte = 62 :=
      Bytes.forall_of_all (by decide)
    rcases each byte listed with rfl | rfl | rfl | rfl | rfl | rfl
    · have piece : (htmlReplacementTable 34).getD [34] = [38, 35, 51, 52, 59] := by decide
      rw [piece]
      rfl
    · have piece : (htmlReplacementTable 38).getD [38] = [38, 97, 109, 112, 59] := by decide
      rw [piece]
      rfl
    · have piece : (htmlReplacementTable 39).getD [39] = [38, 35, 51, 57, 59] := by decide
      rw [piece]
      rfl
    · have piece : (htmlReplacementTable 43).getD [43] = [38, 35, 52, 51, 59] := by decide
      rw [piece]
      rfl
    · have piece : (htmlReplacementTable 60).getD [60] = [38, 108, 116, 59] := by decide
      rw [piece]
      rfl
    · have piece : (htmlReplacementTable 62).getD [62] = [38, 103, 116, 59] := by decide
      rw [piece]
      rfl
  · have values : ∀ value : Fin 256, UInt8.ofFin value ≠ 0 →
        UInt8.ofFin value ∉ utf8 "\"&'+<>" →
        htmlReplacementTable (UInt8.ofFin value) = none ∧
          UInt8.ofFin value ≠ Address.ampersand := by
      decide +kernel
    have kept : htmlReplacementTable byte = none ∧ byte ≠ Address.ampersand :=
      values byte.toFin present listed
    rw [kept.1, Option.getD_none, List.singleton_append, Address.decodeReferences_cons kept.2]

theorem decodeReferences_htmlEscaper {text : ByteString} (present : (0 : UInt8) ∉ text) :
    Address.decodeReferences (htmlEscaper text) = text := by
  unfold htmlEscaper
  induction text with
  | nil => rfl
  | cons byte rest induction =>
      have here : byte ≠ 0 := fun same => present (same ▸ List.mem_cons_self)
      rw [Bytes.escape_cons, decodeReferences_escaped here,
        induction fun member => present (List.mem_cons_of_mem byte member)]

/-- `isSafeURL`: there is no protocol, or a harmless one. -/
def isSafeURL (url : ByteString) : Bool :=
  let protocol := url.takeWhile fun byte => byte ≠ 58
  protocol.length = url.length || protocol.contains Path.slash ||
    [utf8 "http", utf8 "https", utf8 "mailto"].contains (Bytes.toLower protocol)

/-- `urlFilter` -/
def urlFilter (url : ByteString) : ByteString :=
  if isSafeURL url then url else utf8 "#ZgotmplZ"

/-- `partials/avatar.html` -/
def avatarTemplate (data : AvatarData) : ByteString :=
  utf8 "<a href=\"" ++ htmlEscaper (urlNormalizer (urlFilter data.url)) ++
    utf8 "\"><div class=\"avatar\">" ++
    (if data.hasAvatar then
      utf8 "<img src=\"/api/user/avatar/" ++ htmlEscaper (urlNormalizer data.userID) ++
        utf8 "\" width=\"32\" height=\"32\" alt=\"\">"
    else svgOf data.color data.textColor data.initial) ++
    utf8 "</div></a>"

def avatarPrefix : ByteString := utf8 "/api/user/avatar/"

def avatarURL (user : ByteString) : ByteString := avatarPrefix ++ urlNormalizer user

section Source

theorem source_avatar (user after : ByteString) :
    Address.source (utf8 "<img src=\"/api/user/avatar/" ++ (htmlEscaper (urlNormalizer user) ++
      Address.quote :: after)) = some (avatarURL user) := by
  have front : utf8 "<img src=\"/api/user/avatar/" = Address.imageMarker ++ avatarPrefix := by
    decide
  have literal : avatarPrefix = htmlEscaper avatarPrefix := by decide
  have escaped : avatarPrefix ++ htmlEscaper (urlNormalizer user) =
      htmlEscaper (avatarURL user) := by
    unfold avatarURL htmlEscaper at *
    rw [Bytes.escape_append, ← literal]
  have present : (0 : UInt8) ∉ avatarURL user := by
    unfold avatarURL
    rw [List.mem_append, not_or]
    refine ⟨by decide, fun member => ?_⟩
    rcases isURLByte_of_mem_urlNormalizer member with same | kept
    · cases same
    · revert kept
      decide
  have read := Address.source_image (not_mem_htmlEscaper (avatarURL user)).1 after
  rw [decodeReferences_htmlEscaper present, ← escaped] at read
  rw [front, ← read]
  simp only [List.append_assoc]

theorem source_htmlEscaper (text after : ByteString) :
    Address.source (htmlEscaper text ++ after) = Address.source after :=
  Address.source_append_of_not_mem (not_mem_htmlEscaper text).2 after

theorem source_avatarTemplate {data : AvatarData} (pictured : data.hasAvatar = true) :
    Address.source (avatarTemplate data) = some (avatarURL data.userID) := by
  have closed : utf8 "\" width=\"32\" height=\"32\" alt=\"\">" =
      Address.quote :: utf8 " width=\"32\" height=\"32\" alt=\"\">" := by
    decide
  unfold avatarTemplate
  simp only [pictured, if_true, List.append_assoc]
  rw [Address.source_append (by decide), source_htmlEscaper, Address.source_append (by decide),
    closed, List.cons_append, source_avatar]

theorem source_dateDivider (dateHeader after : ByteString) :
    Address.source (dateDivider dateHeader ++ after) = Address.source after := by
  unfold dateDivider
  simp only [List.append_assoc]
  rw [Address.source_append (by decide), Address.source_append (by decide), source_htmlEscaper,
    Address.source_append (by decide)]

theorem source_messageTemplate {data : MessageTemplateData} (shown : data.showAvatar = true)
    (pictured : data.hasAvatar = true) :
    Address.source (messageTemplate data) = some (avatarURL data.user) := by
  have divider : ∀ after, Address.source
      ((if data.dateHeader = [] then [] else dateDivider data.dateHeader) ++ after) =
        Address.source after := by
    intro after
    split
    · rfl
    · exact source_dateDivider data.dateHeader after
  have closed : utf8 "\" width=\"32\" height=\"32\" alt=\"\">\n      " =
      Address.quote :: utf8 " width=\"32\" height=\"32\" alt=\"\">\n      " := by
    decide
  unfold messageTemplate avatarColumn messageAvatar
  simp only [shown, pictured, if_true, List.append_assoc, List.nil_append]
  rw [divider, Address.source_append (by decide), Address.source_append (by decide),
    Address.source_append (by decide), closed, List.cons_append, source_avatar]

end Source

/-! ## Routes -/

section Routes

variable {platform : Platform} {request : Request}

theorem eq_of_ite {condition : Prop} [Decidable condition] {first second wanted : Route}
    (other : first ≠ wanted) (chosen : (if condition then first else second) = wanted) :
    second = wanted := by
  split at chosen
  · exact absurd chosen other
  · exact chosen

theorem segments_of_apiRoute {segments : List ByteString}
    (routed : apiRoute request segments = .avatarGetUser) : ∃ fourth rest,
      segments = utf8 "api" :: utf8 "user" :: utf8 "avatar" :: fourth :: rest := by
  unfold apiRoute at routed
  -- the twelve patterns without a variable
  iterate 12 replace routed := eq_of_ite (by decide) routed
  split at routed
  case h_1 _ one two three keyId =>
    replace routed := eq_of_ite (by simp) routed
    split at routed
    case isTrue both =>
      cases both.1
      exact ⟨keyId, [], rfl⟩
    case isFalse => cases routed
  case h_2 _ one two three fourth rest _ =>
    split at routed
    case isTrue both =>
      cases both.1
      exact ⟨fourth, rest, rfl⟩
    case isFalse => cases routed
  case h_3 => cases routed

theorem segments_of_avatarGetUser (routed : route platform request = .avatarGetUser) :
    cleanPath request.escapedPath = request.escapedPath ∧ ∃ fourth rest,
      pathSegments request.escapedPath =
        utf8 "api" :: utf8 "user" :: utf8 "avatar" :: fourth :: rest := by
  unfold route at routed
  split at routed
  case isFalse => cases routed
  case isTrue clean =>
    refine ⟨clean, ?_⟩
    unfold muxRoute at routed
    split at routed
    case h_1 =>
      repeat' split at routed
      all_goals cases routed
    case h_2 first rest _ segments =>
      rw [segments]
      split at routed
      · cases routed
      · split at routed
        · cases routed
        · exact segments_of_apiRoute routed
    case h_3 => cases routed

theorem route_avatarGetUser {fourth : ByteString} {rest : List ByteString}
    (clean : cleanPath request.escapedPath = request.escapedPath)
    (segments : pathSegments request.escapedPath =
      utf8 "api" :: utf8 "user" :: utf8 "avatar" :: fourth :: rest)
    (read : request.method = utf8 "GET") : route platform request = .avatarGetUser := by
  have get : isGet request = true := by
    simp [isGet, isMethod, read]
  have other : utf8 "user" ≠ utf8 "admin" := by decide
  unfold route
  rw [if_pos clean, muxRoute_of_segments segments, if_neg (by decide),
    if_neg fun both => absurd both.1 (by decide)]
  cases rest <;> simp [apiRoute, get, other]

theorem apiRoute_ne_redirect (request : Request) (segments : List ByteString)
    (path : ByteString) : apiRoute request segments ≠ .redirect path := by
  intro routed
  unfold apiRoute at routed
  iterate 12 replace routed := eq_of_ite (by simp) routed
  split at routed
  case h_1 =>
    replace routed := eq_of_ite (by simp) routed
    split at routed <;> cases routed
  case h_2 => split at routed <;> cases routed
  case h_3 => cases routed

theorem path_of_muxRoute {path : ByteString}
    (moved : muxRoute platform request = .redirect path) :
    ∃ name, (name = utf8 "static" ∨ name = utf8 "emotes") ∧
      path = Address.ofSegments [name, []] := by
  unfold muxRoute at moved
  split at moved
  case h_1 =>
    iterate 3 replace moved := eq_of_ite (by simp) moved
    split at moved
    · cases moved
      exact ⟨utf8 "static", .inl rfl, by decide⟩
    · split at moved
      · cases moved
        exact ⟨utf8 "emotes", .inr rfl, by decide⟩
      · cases moved
  case h_2 first rest _ _ =>
    iterate 2 replace moved := eq_of_ite (by simp) moved
    exact absurd moved (apiRoute_ne_redirect request _ path)
  case h_3 => cases moved

theorem not_avatarGetUser_of_muxRoute {headers last : Request} {path : ByteString}
    (moved : muxRoute platform request = .redirect path)
    (followed : Arrives platform headers (request.location path) last) :
    route platform last ≠ .avatarGetUser := by
  rcases path_of_muxRoute moved with ⟨name, either, rfl⟩
  have plain : Plain ([name] ++ [[]]) := by
    rcases either with rfl | rfl <;> constructor <;> decide
  have same : Path.escape name = name := by
    rcases either with rfl | rfl <;> decide
  have present : name ≠ [] := by
    rcases either with rfl | rfl <;> decide
  rcases get_location headers request (List.cons_ne_nil name [[]]) plain with
    ⟨next, asked, -, escaped⟩
  rw [List.map_cons, same] at escaped
  have clean : cleanPath next.escapedPath = next.escapedPath := by
    rw [escaped]
    exact (cleanPath_eq_self_iff plain).mpr (by simp [Ne.symm present])
  have segments : pathSegments next.escapedPath = [name, []] := by
    have whole : ∀ segment ∈ [name, []], Path.slash ∉ segment := plain.whole
    rw [escaped]
    refine (pathSegments_ofSegments (List.cons_ne_nil name [[]]) whole).trans ?_
    rcases either with rfl | rfl <;> decide
  have handled : route platform next = .staticFiles ∨ route platform next = .runtimeEmotes ∨
      route platform next = .index := by
    unfold route
    rw [if_pos clean, muxRoute_of_segments segments]
    rcases either with rfl | rfl
    · exact .inl (if_pos rfl)
    · rw [if_neg (by decide), apiRoute_pair next (by decide)]
      split
      · exact .inr (.inl rfl)
      · exact .inr (.inr rfl)
  have settled : ∀ target, route platform next ≠ .redirect target := by
    intro target
    rcases handled with found | found | found <;> rw [found] <;> simp
  rw [(arrives_iff asked settled).mp followed]
  rcases handled with found | found | found <;> rw [found] <;> decide

theorem path_of_avatarGetUser {segments : List ByteString} (nonempty : segments ≠ [])
    (whole : ∀ segment ∈ segments, Path.slash ∉ segment)
    (escaped : request.escapedPath = Address.ofSegments segments)
    (decoded : Path.unescape request.escapedPath = some request.path)
    (routed : route platform request = .avatarGetUser) :
    request.path = avatarPrefix ++ Bytes.trimPrefix avatarPrefix request.path := by
  rcases (segments_of_avatarGetUser routed).2 with ⟨fourth, rest, matched⟩
  rw [escaped, pathSegments_ofSegments nonempty whole] at matched
  rw [escaped] at decoded
  have path := Address.eq_ofSegments_of_unescape nonempty decoded
  rw [matched, Address.ofSegments_cons (by simp), Address.ofSegments_cons (by simp),
    Address.ofSegments_cons (by simp)] at path
  have below : request.path = avatarPrefix ++ (Address.ofSegments (fourth :: rest)).tail := by
    have front : avatarPrefix = Path.slash :: (utf8 "api" ++ Path.slash :: (utf8 "user" ++
        Path.slash :: (utf8 "avatar" ++ [Path.slash]))) := by
      decide
    rw [path, front]
    simp [Address.ofSegments]
  unfold Bytes.trimPrefix
  rw [below, Bytes.hasPrefix_append, if_pos rfl, List.drop_left]

end Routes

/-! ## Round trips -/

/-- Names that an address can be made of as they are. -/
structure Addressable (user : ByteString) : Prop where
  /-- There is no `?` and no `#`. -/
  inPath : ∀ byte ∈ user, Address.inPath byte = true
  /-- There is nothing that could be decoded. -/
  literal : Path.EscapeFree user
  notDots : ∀ segment ∈ Path.components user, segment ≠ Path.dot ∧ segment ≠ Path.dotDot
  /-- No slash follows a slash or comes first. -/
  present : [] ∉ (Path.components user).dropLast

/-- A browser that shows the markup asks `handleAvatarGetUser` for this user. -/
def AsksFor (platform : Platform) (headers : Request) (markup user : ByteString) : Prop :=
  ∃ address request, Address.source markup = some address ∧
    Arrives platform headers address request ∧ route platform request = .avatarGetUser ∧
    Bytes.trimPrefix avatarPrefix request.path = user

section RoundTrips

variable {platform : Platform} {headers request : Request} {user : ByteString}

theorem avatarURL_cons (user : ByteString) :
    avatarURL user = Path.slash :: (utf8 "api/user/avatar/" ++ urlNormalizer user) := by
  have front : avatarPrefix = Path.slash :: utf8 "api/user/avatar/" := by decide
  unfold avatarURL
  rw [front]
  rfl

theorem components_avatarURL (user : ByteString) :
    Path.components (utf8 "api/user/avatar/" ++ urlNormalizer user) =
      [utf8 "api", utf8 "user", utf8 "avatar"] ++
        (Path.components user).map urlNormalizer := by
  have front : utf8 "api/user/avatar/" = utf8 "api/user/avatar" ++ [Path.slash] := by decide
  have before : Path.components (utf8 "api/user/avatar") =
      [utf8 "api", utf8 "user", utf8 "avatar"] := by
    decide
  rw [front, List.append_assoc, List.singleton_append, Path.components_append, before,
    components_urlNormalizer]

theorem decodedLength_avatarURL (user : ByteString) :
    Path.decodedLength (avatarURL user) = avatarPrefix.length + Path.decodedLength user := by
  have front : avatarPrefix = utf8 "/api/user/avatar" ++ [Path.slash] := by decide
  unfold avatarURL
  rw [front, List.append_assoc, List.singleton_append, Address.decodedLength_slash,
    Path.decodedLength_of_not_mem (by decide), decodedLength_urlNormalizer, List.length_append,
    List.length_singleton]

theorem count_avatarURL (user : ByteString) :
    (avatarURL user).count Path.slash = avatarPrefix.count Path.slash +
      user.count Path.slash := by
  have segments := Address.length_components (urlNormalizer user)
  rw [components_urlNormalizer, List.length_map, Address.length_components] at segments
  unfold avatarURL
  rw [List.count_append]
  omega

theorem avatarSegments_eq (user : ByteString) :
    ∃ last, [utf8 "api", utf8 "user", utf8 "avatar"] ++
        (Path.components user).map urlNormalizer =
      ([utf8 "api", utf8 "user", utf8 "avatar"] ++
        (Path.components user).dropLast.map urlNormalizer) ++ [last] := by
  have nonempty : Path.components user ≠ [] := List.splitOn_ne_nil _ _
  have split : (Path.components user).map urlNormalizer =
      (Path.components user).dropLast.map urlNormalizer ++
        [urlNormalizer ((Path.components user).getLast nonempty)] := by
    rw [← List.map_singleton, ← List.map_append, List.dropLast_append_getLast nonempty]
  exact ⟨_, by rw [split, List.append_assoc]⟩

theorem nil_mem_avatarSegments {user : ByteString} :
    [] ∈ [utf8 "api", utf8 "user", utf8 "avatar"] ++
        (Path.components user).dropLast.map urlNormalizer ↔
      [] ∈ (Path.components user).dropLast := by
  have front : ([] : ByteString) ∉ [utf8 "api", utf8 "user", utf8 "avatar"] := by decide
  rw [List.mem_append, or_iff_right front, List.mem_map]
  constructor
  · rintro ⟨segment, member, empty⟩
    cases segment with
    | nil => exact member
    | cons byte rest =>
        rw [urlNormalizer] at empty
        have both := List.append_eq_nil_iff.mp empty
        split at both
        · cases both.1
        · cases both.1
  · exact fun member => ⟨[], member, rfl⟩

theorem isURLByte_of_not_inPath {byte : UInt8} (outside : Address.inPath byte = false) :
    isURLByte byte = true ∧ Path.unhex byte = none := by
  have values : ∀ value : Fin 256, Address.inPath (UInt8.ofFin value) = false →
      isURLByte (UInt8.ofFin value) = true ∧ Path.unhex (UInt8.ofFin value) = none := by
    decide +kernel
  exact values byte.toFin outside

theorem addressable_of_asked (asked : headers.get (avatarURL user) = some request)
    (routed : route platform request = .avatarGetUser)
    (named : Bytes.trimPrefix avatarPrefix request.path = user) : Addressable user := by
  rcases Request.get_eq_some asked with ⟨decoded, escaped, -⟩
  have plain := plain_requested (avatarURL user)
  have nonempty := Address.requested_ne_nil (avatarURL user)
  have path := path_of_avatarGetUser nonempty plain.whole escaped (escaped ▸ decoded) routed
  rw [named] at path
  -- nothing on the way may have made the text shorter
  have length := Path.length_of_unescape decoded
  have shorter := Path.decodedLength_le user
  have lost := Address.decodedLength_target_le (utf8 "api/user/avatar/" ++ urlNormalizer user)
  rw [← avatarURL_cons, decodedLength_avatarURL] at lost
  rw [path, List.length_append] at length
  have literal : Path.decodedLength user = user.length := by omega
  have kept := Address.of_decodedLength_target (utf8 "api/user/avatar/" ++ urlNormalizer user)
    (by rw [← avatarURL_cons, decodedLength_avatarURL]; omega)
  have segments := Address.requested_of_path _ kept.1 kept.2
  rw [← avatarURL_cons, components_avatarURL] at kept segments
  constructor
  · intro byte member
    have written := List.takeWhile_eq_self_iff.mp kept.1
    cases inside : Address.inPath byte with
    | true => rfl
    | false =>
        have url := isURLByte_of_not_inPath inside
        have there : byte ∈ urlNormalizer user := (mem_urlNormalizer url.1 url.2 user).mpr member
        rw [written byte (List.mem_append_right _ there)] at inside
        cases inside
  · exact (Path.decodedLength_eq_length_iff user).mp literal
  · intro segment member
    have dotless := kept.2 _ (List.mem_append_right _ (List.mem_map_of_mem member))
    constructor
    · rintro rfl
      exact absurd dotless (by decide)
    · rintro rfl
      exact absurd dotless (by decide)
  · have clean := (segments_of_avatarGetUser routed).1
    rcases avatarSegments_eq user with ⟨last, concat⟩
    rw [segments, concat] at plain
    rw [escaped, Address.target, segments, concat, cleanPath_eq_self_iff plain] at clean
    exact fun empty => clean (nil_mem_avatarSegments.mpr empty)

theorem not_asked_after_redirect {last : Request} {path : ByteString}
    (asked : headers.get (avatarURL user) = some request)
    (moved : route platform request = .redirect path)
    (followed : Arrives platform headers (request.location path) last)
    (routed : route platform last = .avatarGetUser) :
    Bytes.trimPrefix avatarPrefix last.path ≠ user := by
  intro named
  unfold route at moved
  split at moved
  case isTrue => exact not_avatarGetUser_of_muxRoute moved followed routed
  case isFalse unclean =>
    have escaped := (Request.get_eq_some asked).2.1
    have plain := plain_requested (avatarURL user)
    have slashes := Address.count_target_le (utf8 "api/user/avatar/" ++ urlNormalizer user)
    rw [← avatarURL_cons, count_avatarURL, Address.target] at slashes
    rw [escaped, Address.target] at moved unclean
    rcases List.eq_nil_or_concat (Address.requested (avatarURL user)) with
      empty | ⟨init, final, concat⟩
    · exact absurd empty (Address.requested_ne_nil (avatarURL user))
    rw [List.concat_eq_append] at concat
    rw [concat] at plain moved unclean slashes
    have fewer := count_lt_of_unclean plain unclean
    have nonempty : init.filter Path.counts ++ [final] ≠ [] := by simp
    rw [cleanPath_ofSegments plain] at moved
    cases moved
    rcases get_location headers request nonempty plain.filter with ⟨next, asks, path, again⟩
    cases followed with
    | directly found handled =>
        rw [Option.some.inj (found.symm.trans asks)] at routed named
        rcases Request.get_eq_some asks with ⟨decoded, target, -⟩
        have below := path_of_avatarGetUser (by simp) plain.filter.escape.whole
          again (target ▸ decoded) routed
        rw [named, path] at below
        rw [below, List.count_append] at fewer
        omega
    | redirected found moves later =>
        rw [Option.some.inj (found.symm.trans asks)] at moves later
        unfold route at moves
        rw [again, if_pos (clean_redirected plain)] at moves
        exact not_avatarGetUser_of_muxRoute moves later routed

theorem Addressable.dotless (addressable : Addressable user) :
    ∀ segment ∈ Path.components (utf8 "api/user/avatar/" ++ urlNormalizer user),
      Address.isDots segment = false := by
  have front : ∀ segment ∈ [utf8 "api", utf8 "user", utf8 "avatar"],
      Address.isDots segment = false := by
    decide
  intro segment member
  rw [components_avatarURL] at member
  rcases List.mem_append.mp member with member | member
  · exact front segment member
  · rcases List.mem_map.mp member with ⟨part, inside, rfl⟩
    have decoded := unescape_urlNormalizer
      (addressable.literal.of_infix (Bytes.infix_of_mem_splitOn inside))
    have named := addressable.notDots part inside
    simp [Address.isDots, Address.isSingleDot, Address.isDoubleDot, decoded, named]

theorem Addressable.path_avatarURL (addressable : Addressable user) :
    Address.path (avatarURL user) = avatarURL user := by
  have front : ∀ byte ∈ avatarPrefix, Address.inPath byte = true :=
    Bytes.forall_of_all (by decide)
  apply List.takeWhile_eq_self_iff.mpr
  intro byte member
  cases inside : Address.inPath byte with
  | true => rfl
  | false =>
      have url := isURLByte_of_not_inPath inside
      rcases List.mem_append.mp member with member | member
      · rw [front byte member] at inside
        cases inside
      · rw [addressable.inPath byte ((mem_urlNormalizer url.1 url.2 user).mp member)] at inside
        cases inside

theorem Addressable.requested_avatarURL (addressable : Addressable user) :
    Address.requested (avatarURL user) = [utf8 "api", utf8 "user", utf8 "avatar"] ++
      (Path.components user).map urlNormalizer := by
  have requested := Address.requested_of_path (utf8 "api/user/avatar/" ++ urlNormalizer user)
    (by rw [← avatarURL_cons, addressable.path_avatarURL]) addressable.dotless
  rw [← avatarURL_cons, components_avatarURL] at requested
  exact requested

theorem Addressable.target_avatarURL (addressable : Addressable user) :
    Address.target (avatarURL user) = avatarURL user := by
  rw [Address.target, addressable.requested_avatarURL, ← components_avatarURL,
    Address.ofSegments_components, avatarURL_cons]

theorem Addressable.unescape_avatarURL (addressable : Addressable user) :
    Path.unescape (avatarURL user) = some (avatarPrefix ++ user) := by
  have front : avatarPrefix = utf8 "/api/user/avatar" ++ [Path.slash] := by decide
  unfold avatarURL
  rw [front, List.append_assoc, List.append_assoc, List.singleton_append,
    List.singleton_append, Path.unescape_append (by decide) (by decide),
    Path.unescape_of_not_mem (by decide), unescape_urlNormalizer addressable.literal]
  rfl

theorem asked_of_addressable (addressable : Addressable user) :
    ∃ request, headers.get (avatarURL user) = some request ∧
      route platform request = .avatarGetUser ∧
      Bytes.trimPrefix avatarPrefix request.path = user := by
  have plain := plain_requested (avatarURL user)
  have written : avatarURL user = Address.ofSegments (Address.requested (avatarURL user)) :=
    addressable.target_avatarURL.symm
  have clean : cleanPath (avatarURL user) = avatarURL user := by
    rcases avatarSegments_eq user with ⟨last, concat⟩
    rw [addressable.requested_avatarURL, concat] at plain written
    rw [written, cleanPath_eq_self_iff plain, nil_mem_avatarSegments]
    exact addressable.present
  have matched : pathSegments (avatarURL user) =
      ([utf8 "api", utf8 "user", utf8 "avatar"] ++
        (Path.components user).map urlNormalizer).map
          fun segment => (Path.unescape segment).getD segment := by
    rw [written, pathSegments_ofSegments (Address.requested_ne_nil _) plain.whole,
      addressable.requested_avatarURL]
  unfold Request.get
  rw [addressable.target_avatarURL, addressable.unescape_avatarURL]
  refine ⟨_, rfl, ?_, ?_⟩
  · rcases parts : Path.components user with - | ⟨first, rest⟩
    · exact absurd parts (List.splitOn_ne_nil _ _)
    · rw [parts] at matched
      exact route_avatarGetUser clean matched rfl
  · unfold Bytes.trimPrefix
    rw [Bytes.hasPrefix_append, if_pos rfl, List.drop_left]

theorem asksFor_iff {markup : ByteString} (shown : Address.source markup = some (avatarURL user)) :
    AsksFor platform headers markup user ↔ Addressable user := by
  unfold AsksFor
  constructor
  · rintro ⟨address, request, found, arrives, routed, named⟩
    rw [shown] at found
    cases found
    cases arrives with
    | directly asked _ => exact addressable_of_asked asked routed named
    | redirected asked moved followed =>
        exact absurd named (not_asked_after_redirect asked moved followed routed)
  · intro addressable
    rcases @asked_of_addressable platform headers user addressable with
      ⟨request, asked, routed, named⟩
    have handled : ∀ path, route platform request ≠ .redirect path := by
      rw [routed]
      intro path
      simp
    exact ⟨avatarURL user, request, shown, .directly asked handled, routed, named⟩

end RoundTrips

/-- Both templates write an address that leads to the user's own avatar exactly
when the name is addressable. -/
theorem avatars_asksFor_iff (platform : Platform) (headers : Request)
    {message : MessageTemplateData} (shown : message.showAvatar = true)
    (pictured : message.hasAvatar = true) {profile : AvatarData}
    (profilePictured : profile.hasAvatar = true) :
    (AsksFor platform headers (messageTemplate message) message.user ↔
        Addressable message.user) ∧
      (AsksFor platform headers (avatarTemplate profile) profile.userID ↔
        Addressable profile.userID) :=
  ⟨asksFor_iff (source_messageTemplate shown pictured),
    asksFor_iff (source_avatarTemplate profilePictured)⟩

def picturedRow (user : ByteString) : MessageTemplateData where
  id := 1
  user := user
  content := utf8 "hello"
  renderedContent := utf8 "hello"
  timestamp := utf8 "12:00"
  color := utf8 "hsl(0,70%,40%)"
  textColor := utf8 "#fff"
  initial := utf8 "A"
  hasAvatar := true
  showAvatar := true
  showUsername := true
  showTimestamp := true
  dateHeader := utf8 "Today"

def picturedProfile (user : ByteString) : AvatarData where
  userID := user
  url := utf8 "/settings"
  color := utf8 "hsl(0,70%,40%)"
  textColor := utf8 "#fff"
  initial := utf8 "A"
  hasAvatar := true

/-- A blank and an accent are no obstacle. -/
theorem ann_asksFor :
    AsksFor .transparent (.plain (utf8 "GET") [] .empty)
        (messageTemplate (picturedRow (utf8 "ann é"))) (utf8 "ann é") ∧
      AsksFor .transparent (.plain (utf8 "GET") [] .empty)
        (avatarTemplate (picturedProfile (utf8 "ann é"))) (utf8 "ann é") := by
  have both := @avatars_asksFor_iff .transparent (.plain (utf8 "GET") [] .empty)
    (picturedRow (utf8 "ann é")) rfl rfl (picturedProfile (utf8 "ann é")) rfl
  have addressable : Addressable (utf8 "ann é") := by
    constructor
    · exact Bytes.forall_of_all (by decide)
    · exact (Path.decodedLength_eq_length_iff _).mp (Path.decodedLength_of_not_mem (by decide))
    · decide
    · decide
  exact ⟨both.1.mpr addressable, both.2.mpr addressable⟩

/-- The pages show the picture of `ann` for a user who is called `x/../ann`. -/
theorem dots_asksFor_another :
    ¬ AsksFor .transparent (.plain (utf8 "GET") [] .empty)
        (messageTemplate (picturedRow (utf8 "x/../ann"))) (utf8 "x/../ann") ∧
      AsksFor .transparent (.plain (utf8 "GET") [] .empty)
        (messageTemplate (picturedRow (utf8 "x/../ann"))) (utf8 "ann") := by
  have shown : Address.source (messageTemplate (picturedRow (utf8 "x/../ann"))) =
      some (avatarURL (utf8 "x/../ann")) := source_messageTemplate rfl rfl
  constructor
  · rw [asksFor_iff shown]
    intro addressable
    have dots := addressable.notDots Path.dotDot (by decide)
    exact dots.2 rfl
  · have target : Address.target (avatarURL (utf8 "x/../ann")) =
        utf8 "/api/user/avatar/ann" := by
      decide +kernel
    have query : Address.query (avatarURL (utf8 "x/../ann")) = [] := by decide +kernel
    have asked : (Request.plain (utf8 "GET") [] .empty).get (avatarURL (utf8 "x/../ann")) =
        some (.plain (utf8 "GET") (utf8 "/api/user/avatar/ann") .empty) := by
      unfold Request.get
      rw [target, query]
      rfl
    have routed : route .transparent
        (.plain (utf8 "GET") (utf8 "/api/user/avatar/ann") .empty) = .avatarGetUser := by
      decide +kernel
    have handled : ∀ path, route .transparent
        (.plain (utf8 "GET") (utf8 "/api/user/avatar/ann") .empty) ≠ .redirect path := by
      rw [routed]
      intro path
      simp
    exact ⟨_, _, shown, .directly asked handled, routed, by decide⟩

end Grunt.Server
