import Keyring.Proofs.MetadataFile
import Keyring.Proofs.Text
import Keyring.Proofs.Yaml.Resolve
import Keyring.Proofs.Yaml.Values
/-!
# Key pairs in metadata files

A metadata file with the lines for the type, the private key and the public key, in any order, gives
the credential of exactly these keys (`load_keyPair`). The keys may be spelled with digits in either
letter case and a mark in front (`Hex.IsSpelling`), plain or between quotes.
-/

namespace Keyring

open Yaml Outcome

/-! ## Spellings -/

namespace Hex

/-- The digits are those of the bytes, each in either letter case. -/
def Spells (bs : List UInt8) (digits : List Char) : Prop :=
  digits.map Char.toLower = (encode bs).toList

/-- What may stand before digits. -/
def marks : List (List Char) :=
  [[], ['0', 'x'], ['0', 'X']]

/-- The text is a spelling of the bytes: digits, which a mark may precede. -/
def IsSpelling (bs : List UInt8) (cs : List Char) : Prop :=
  ∃ mark ∈ marks, ∃ digits, Spells bs digits ∧ cs = mark ++ digits

variable {bs : List UInt8} {digits cs : List Char}

theorem toNat_lt_of_toLower {c : Char} (h : c.toLower.toNat < 0x80) : c.toNat < 0x80 := by
  unfold Char.toLower at h
  split at h
  · next hupper =>
    have hle : c.val.toNat ≤ 'Z'.val.toNat := UInt32.le_iff_toNat_le.1 hupper.2
    exact Nat.lt_of_le_of_lt hle (by decide)
  · exact h

/-- A digit has its value in either letter case. -/
theorem digit?_of_toLower {c : Char} {n : Nat} (hn : n < 16) (hc : c.toLower = Text.hexDigit n) :
    digit? c = some n := by
  have hlt : c.toNat < 0x80 := toNat_lt_of_toLower (hc ▸ hexDigit_lt hn)
  have all : ∀ k : Fin 128, ∀ m : Fin 16, (Char.ofNat k).toLower = Text.hexDigit m →
      digit? (Char.ofNat k) = some m.val := by
    decide +kernel
  have h := all ⟨c.toNat, hlt⟩ ⟨n, hn⟩
  rw [Char.ofNat_toNat] at h
  exact h hc

theorem spells_iff : Spells bs digits ↔ digits.map Char.toLower = bs.flatMap encodeByte := by
  rw [Spells, encode, String.toList_ofList]

theorem Spells.length_eq (h : Spells bs digits) : digits.length = 2 * bs.length := by
  rw [← length_flatMap_encodeByte, ← spells_iff.1 h, List.length_map]

theorem Spells.isHexDigit (h : Spells bs digits) : ∀ c ∈ digits, isHexDigit c = true := by
  intro c hc
  have hm := List.mem_map_of_mem (f := Char.toLower) hc
  rw [spells_iff.1 h] at hm
  obtain ⟨b, -, hb⟩ := List.mem_flatMap.1 hm
  have hlt := b.toNat_lt
  simp only [encodeByte, List.mem_cons, List.not_mem_nil, or_false] at hb
  rcases hb with hb | hb
  · rw [Yaml.isHexDigit, digit?_of_toLower (by omega) hb]
    rfl
  · rw [Yaml.isHexDigit, digit?_of_toLower (by omega) hb]
    rfl

/-- A hex digit stands for its value. -/
theorem toLower_of_digit? {c : Char} {n : Nat} (h : digit? c = some n) :
    n < 16 ∧ c.toLower = Text.hexDigit n := by
  have hhex : isHexDigit c = true := by
    rw [Yaml.isHexDigit, h]
    rfl
  have all : ∀ k : Fin 128, ∀ m ∈ digit? (Char.ofNat k), m < 16 ∧
      (Char.ofNat k).toLower = Text.hexDigit m := by
    decide +kernel
  have hc := all ⟨c.toNat, toNat_lt_of_isWordChar (isWordChar_of_isHexDigit hhex)⟩
  rw [Char.ofNat_toNat] at hc
  exact hc n h

theorem isSpace_of_isHexDigit {c : Char} (hc : isHexDigit c = true) : Text.isSpace c = false := by
  simpa using of_isWordChar (p := fun c => !Text.isSpace c) (by decide +kernel)
    (isWordChar_of_isHexDigit hc)

/-! ### Pair by pair -/

theorem spells_cons_iff {b : UInt8} :
    Spells (b :: bs) digits ↔
      ∃ pair rest, digits = pair ++ rest ∧ Spells [b] pair ∧ Spells bs rest := by
  simp only [spells_iff, List.flatMap_cons, List.flatMap_nil, List.append_nil]
  exact List.map_eq_append_iff

/-- Two digits spell the byte that they have the halves of. -/
theorem spells_singleton_iff {b : UInt8} :
    Spells [b] digits ↔ ∃ c d high low, digits = [c, d] ∧ digit? c = some high ∧ digit? d = some low ∧
      b = (high * 16 + low).toUInt8 := by
  have hb := b.toNat_lt
  rw [spells_iff, List.flatMap_cons, List.flatMap_nil, List.append_nil, encodeByte]
  constructor
  · intro h
    obtain ⟨c, _, rfl, hc, h⟩ := List.map_eq_cons_iff.1 h
    obtain ⟨d, _, rfl, hd, h⟩ := List.map_eq_cons_iff.1 h
    obtain rfl := List.map_eq_nil_iff.1 h
    exact ⟨c, d, _, _, rfl, digit?_of_toLower (by omega) hc, digit?_of_toLower (by omega) hd,
      (toUInt8_halves b).symm⟩
  · rintro ⟨c, d, high, low, rfl, hhigh, hlow, rfl⟩
    obtain ⟨hlt, hc⟩ := toLower_of_digit? hhigh
    obtain ⟨hlt', hd⟩ := toLower_of_digit? hlow
    rw [Text.Utf8.toNat_toUInt8 (by omega), show (high * 16 + low) / 16 = high by omega,
      show (high * 16 + low) % 16 = low by omega, ← hc, ← hd]
    rfl

/-- A pair of digits is read as its byte. -/
theorem decodeFrom_pair {b : UInt8} {pair : List Char} (h : Spells [b] pair) (position : Nat)
    (rest : List Char) :
    decodeFrom position (pair ++ rest) = (decodeFrom (position + 2) rest).map (b :: ·) := by
  have hdigits := h.isHexDigit
  obtain ⟨c, d, high, low, rfl, hhigh, hlow, rfl⟩ := spells_singleton_iff.1 h
  have hspace := isSpace_of_isHexDigit (hdigits c List.mem_cons_self)
  rw [List.cons_append, List.cons_append, List.nil_append]
  conv_lhs => unfold decodeFrom
  simp only [hspace, Bool.false_eq_true, if_false, hhigh, hlow]

theorem decodeFrom_spells (h : Spells bs digits) (position : Nat) :
    decodeFrom position digits = .ok bs := by
  induction bs generalizing digits position with
  | nil =>
    obtain rfl : digits = [] := List.map_eq_nil_iff.1 (spells_iff.1 h)
    rfl
  | cons b bs ih =>
    obtain ⟨pair, rest, rfl, hpair, hrest⟩ := spells_cons_iff.1 h
    rw [decodeFrom_pair hpair, ih hrest]
    rfl

/-- Digits in either letter case are read back. -/
theorem decode_spells (h : Spells bs digits) : decode digits = .ok bs := by
  have hplain : (digits.findIdx? fun c => 0x80 ≤ c.toNat) = none := by
    rw [List.findIdx?_eq_none_iff]
    intro c hc
    have := toNat_lt_of_isWordChar (isWordChar_of_isHexDigit (h.isHexDigit c hc))
    simpa using this
  rw [decode, hplain]
  exact decodeFrom_spells h 0

/-- Hex digits, two a byte, spell bytes. -/
theorem exists_spells {n : Nat} (hlength : digits.length = 2 * n)
    (hdigits : ∀ c ∈ digits, isHexDigit c = true) :
    ∃ bs : List UInt8, bs.length = n ∧ Spells bs digits := by
  induction n generalizing digits with
  | zero =>
    obtain rfl := List.length_eq_zero_iff.1 hlength
    exact ⟨[], rfl, rfl⟩
  | succ n ih =>
    match digits, hlength with
    | c :: d :: rest, hlength =>
      obtain ⟨hc, hdigits⟩ := List.forall_mem_cons.1 hdigits
      obtain ⟨hd, hrest⟩ := List.forall_mem_cons.1 hdigits
      obtain ⟨high, hhigh⟩ := Option.isSome_iff_exists.1 hc
      obtain ⟨low, hlow⟩ := Option.isSome_iff_exists.1 hd
      have hhalf : rest.length = 2 * n := by simp at hlength; omega
      obtain ⟨bs, hbs, hspells⟩ := ih hhalf hrest
      have hpair := spells_singleton_iff.2 ⟨c, d, high, low, rfl, hhigh, hlow, rfl⟩
      exact ⟨_ :: bs, by rw [List.length_cons, hbs],
        spells_cons_iff.2 ⟨[c, d], rest, rfl, hpair, hspells⟩⟩

theorem spells_encode (bs : List UInt8) : Spells bs (encode bs).toList := by
  have hdigits : ∀ n : Fin 16, (Text.hexDigit n).toLower = Text.hexDigit n := by decide
  have hbyte (b : UInt8) : (encodeByte b).map Char.toLower = encodeByte b := by
    have hlt := b.toNat_lt
    simp only [encodeByte, List.map_cons, List.map_nil, hdigits ⟨b.toNat / 16, by omega⟩,
      hdigits ⟨b.toNat % 16, by omega⟩]
  rw [spells_iff, encode, String.toList_ofList, List.map_flatMap]
  exact List.flatMap_congr fun b _ => hbyte b

/-! ### Marks -/

theorem isKeyChar_of_mem_marks {mark : List Char} (hmark : mark ∈ marks) :
    ∀ c ∈ mark, isKeyChar c = true := by
  have all : marks.all (·.all isKeyChar) = true := by decide
  exact List.all_eq_true.1 (List.all_eq_true.1 all mark hmark)

theorem IsSpelling.isKeyChar (h : IsSpelling bs cs) : ∀ c ∈ cs, isKeyChar c = true := by
  obtain ⟨mark, hmark, digits, hd, rfl⟩ := h
  intro c hc
  rcases List.mem_append.1 hc with hc | hc
  · exact isKeyChar_of_mem_marks hmark c hc
  · rw [Yaml.isKeyChar, hd.isHexDigit c hc]
    rfl

theorem IsSpelling.strip (h : IsSpelling bs cs) : Text.strip cs = cs := by
  refine Text.trim_of_forall fun c hc => ?_
  simpa using of_isWordChar (p := fun c => !Text.isBlank c) (by decide +kernel)
    (isWordChar_of_isKeyChar (h.isKeyChar c hc))

/-- A spelling of at least one byte starts with a digit. -/
theorem IsSpelling.exists_cons (h : IsSpelling bs cs) (hne : bs ≠ []) :
    ∃ c rest, cs = c :: rest ∧ isHexDigit c = true := by
  obtain ⟨mark, hmark, digits, hd, rfl⟩ := h
  simp only [marks, List.mem_cons, List.not_mem_nil, or_false] at hmark
  rcases hmark with rfl | rfl | rfl
  · have hlength := hd.length_eq
    have hpos := List.length_pos_iff.2 hne
    obtain ⟨c, rest, rfl⟩ := List.exists_cons_of_length_pos (show 0 < digits.length by omega)
    exact ⟨c, rest, rfl, hd.isHexDigit c List.mem_cons_self⟩
  · exact ⟨_, _, rfl, by decide⟩
  · exact ⟨_, _, rfl, by decide⟩

/-- The mark is dropped, and two digits are no mark. -/
theorem IsSpelling.dropHexMark (h : IsSpelling bs cs) : Spells bs (Metadata.dropHexMark cs) := by
  obtain ⟨mark, hmark, digits, hd, rfl⟩ := h
  simp only [marks, List.mem_cons, List.not_mem_nil, or_false] at hmark
  rcases hmark with rfl | rfl | rfl
  · rw [List.nil_append]
    unfold Metadata.dropHexMark
    split
    · next x rest =>
      have hx := hd.isHexDigit x (by simp)
      have hne : ¬ (x = 'x' ∨ x = 'X') := by
        rintro (rfl | rfl) <;> exact absurd hx (by decide)
      rwa [if_neg hne]
    · exact hd
  · exact hd
  · exact hd

end Hex

/-- Every spelling of a key is read as the key. -/
theorem Metadata.decodeHex_of_isSpelling {bs : List UInt8} {cs : List Char}
    (h : Hex.IsSpelling bs cs) (name : String) {length : Nat} (hlength : bs.length = length) :
    decodeHex name length (.str (String.ofList cs)) = .ok bs := by
  rw [decodeHex, String.toList_ofList, h.strip, Hex.decode_spells h.dropHexMark]
  simp [hlength]

/-! ## Lines of a key pair -/

namespace MetadataFile

variable {bs secret key : List UInt8} {secretText keyText : List Char} {s t : Style}

/-- The lines of a key pair: its type, the private key and the public key. -/
def keyPairLines (secretText keyText : List Char) (s t : Style) : List Line :=
  [⟨"type".toList, "file-raw".toList, .plain⟩, ⟨"privateKey".toList, secretText, s⟩,
    ⟨"publicKey".toList, keyText, t⟩]

/-- A line with a spelling of bytes is a line of texts. -/
theorem isTextual_of_isSpelling {name cs : List Char} (hname : IsPlainWord name)
    (hlength : name.length ≤ Scan.keyReach) (htext : resolve metadataTags name = strTag)
    (h : Hex.IsSpelling bs cs) (hne : bs ≠ []) (s : Style) : Line.IsTextual ⟨name, cs, s⟩ := by
  obtain ⟨c, rest, hcs, hc⟩ := h.exists_cons hne
  have hcs' : cs ≠ [] := by simp [hcs]
  have hword : IsWord cs := fun d hd => isWordChar_of_isKeyChar (h.isKeyChar d hd)
  constructor
  case toIsSimple =>
    constructor
    case key => exact hname
    case key_length => exact hlength
    case value => exact hword
    case plain =>
      refine fun _ => ⟨hword, hcs', ?_⟩
      intro d hd
      obtain rfl : c = d := by simpa [hcs] using hd
      refine ⟨isWordChar_of_isHexDigit hc, ?_⟩
      rintro rfl
      exact absurd hc (by decide)
  case key_text => exact htext
  case value_text => exact fun _ => resolve_key hcs' h.isKeyChar

theorem isTextual_keyPairLines (hs : Hex.IsSpelling secret secretText) (hsecret : secret ≠ [])
    (hk : Hex.IsSpelling key keyText) (hkey : key ≠ []) :
    ∀ l ∈ keyPairLines secretText keyText s t, l.IsTextual := by
  rw [keyPairLines, List.forall_mem_cons, List.forall_mem_cons, List.forall_mem_cons]
  refine ⟨?_, ?_, ?_, by simp⟩
  · exact ⟨⟨by decide, by decide, by decide, fun _ => by decide⟩, by decide +kernel,
      fun _ => by decide +kernel⟩
  · exact isTextual_of_isSpelling (by decide) (by decide) (by decide +kernel) hs hsecret s
  · exact isTextual_of_isSpelling (by decide) (by decide) (by decide +kernel) hk hkey t

/-! ## The credential -/

/-- The spelling of a key in the metadata is there and read as the key. -/
theorem require_of_isSpelling {m : Metadata} {name : String}
    (hget : m.get? name = some (.str (String.ofList keyText))) (hk : Hex.IsSpelling key keyText)
    (hne : key ≠ []) : m.require name = .ok (.str (String.ofList keyText)) := by
  have hpresent : (Datum.str (String.ofList keyText)).isMissing = false := by
    obtain ⟨c, rest, rfl, -⟩ := hk.exists_cons hne
    simp [Datum.isMissing]
  rw [Metadata.require, hget, Option.filter_some, hpresent]
  rfl

/-- With the private key at hand, the credential is that of the public key. -/
theorem createRaw_privateKey {m : Metadata} (hs : Hex.IsSpelling secret secretText)
    (hsecret : secret.length = Handler.secretLength)
    (hget : m.get? "privateKey" = some (.str (String.ofList secretText))) (source : Path) :
    Handler.createRaw m source = (do
      let key ← Metadata.decodeHex "publicKey" Handler.publicLength (← m.require "publicKey")
      pure ⟨Handler.identifierOf key, "file-raw", some source, some secret, none, none⟩) := by
  have hne : secret ≠ [] := by rintro rfl; cases hsecret
  rw [Handler.createRaw, require_of_isSpelling hget hs hne]
  simp only [bind, Except.bind, Metadata.decodeHex_of_isSpelling hs "privateKey" hsecret]

theorem createRaw_keyPair {m : Metadata} (hs : Hex.IsSpelling secret secretText)
    (hsecret : secret.length = Handler.secretLength) (hk : Hex.IsSpelling key keyText)
    (hkey : key.length = Handler.publicLength)
    (hsget : m.get? "privateKey" = some (.str (String.ofList secretText)))
    (hkget : m.get? "publicKey" = some (.str (String.ofList keyText))) (source : Path) :
    Handler.createRaw m source = .ok ⟨Handler.identifierOf key, "file-raw", some source, some secret,
      none, none⟩ := by
  have hne : key ≠ [] := by rintro rfl; cases hkey
  rw [createRaw_privateKey hs hsecret hsget, require_of_isSpelling hkget hk hne]
  simp only [bind, Except.bind, Metadata.decodeHex_of_isSpelling hk "publicKey" hkey]
  rfl

/-- A mapping of this type is left to the handler of raw keys. -/
theorem create_fileRaw {h : Host} {p : Path} {m : Metadata}
    (htype : m.get? "type" = some (.str "file-raw")) :
    create .builtin h p m = (Handler.createRaw m p).mapError (handlerFailure p) := by
  have hchoose : Registry.builtin.choose (.str "file-raw") = .ok Handler.raw := rfl
  simp only [create, htype, hchoose]
  rfl

/-- The lines of a key pair, in any order and with or without a line feed at their end, are a document
with the type and the two keys. -/
theorem read_keyPair {lines : List Line} {ending : List Char} (hs : Hex.IsSpelling secret secretText)
    (hsecret : secret ≠ []) (hk : Hex.IsSpelling key keyText) (hkey : key ≠ [])
    (hlines : lines.Perm (keyPairLines secretText keyText s t))
    (hending : ending = [] ∨ ending = ['\n']) :
    ∃ d, Yaml.Document.read (Line.join lines ++ ending) = .ok d ∧
      d.get? "type" = some (.str "file-raw") ∧
      d.get? "privateKey" = some (.str (String.ofList secretText)) ∧
      d.get? "publicKey" = some (.str (String.ofList keyText)) := by
  have htextual : ∀ l ∈ lines, l.IsTextual := fun l hl =>
    isTextual_keyPairLines hs hsecret hk hkey l (hlines.mem_iff.1 hl)
  -- The order of the lines plays no part from here on: a mapping is asked by its keys.
  have hkeys : (lines.map Line.key).Nodup :=
    (hlines.map Line.key).nodup_iff.2 (by simp [keyPairLines])
  have hne : lines ≠ [] := by
    rintro rfl
    exact absurd hlines.length_eq (by simp [keyPairLines])
  have hget : ∀ l ∈ keyPairLines secretText keyText s t, (Yaml.Document.ofLines lines).get?
      (String.ofList l.key) = some (.str (String.ofList l.value)) :=
    fun l hl => Yaml.Document.get?_ofLines hkeys (hlines.mem_iff.2 hl)
  rw [keyPairLines, List.forall_mem_cons, List.forall_mem_cons, List.forall_mem_cons] at hget
  obtain ⟨htype, hprivate, hpublic, -⟩ := hget
  exact ⟨_, Yaml.Document.read_join hending hne htextual hkeys, htype, hprivate, hpublic⟩

theorem isLineChar_keyPair {lines : List Line} {ending : List Char}
    (hs : Hex.IsSpelling secret secretText) (hsecret : secret ≠ []) (hk : Hex.IsSpelling key keyText)
    (hkey : key ≠ []) (hlines : lines.Perm (keyPairLines secretText keyText s t))
    (hending : ending = [] ∨ ending = ['\n']) :
    ∀ c ∈ Line.join lines ++ ending, isLineChar c = true :=
  isLineChar_text hending fun l hl =>
    (isTextual_keyPairLines hs hsecret hk hkey l (hlines.mem_iff.1 hl)).toIsSimple

/-- A metadata file with the lines of a key pair, in any order and with or without a line feed at its
end, gives the credential of exactly these keys, however they are spelled and quoted. -/
theorem load_keyPair (h : Host) (p : Path) (secret key : List UInt8)
    (secretText keyText : List Char) (s t : Style) (lines : List Line) (ending : List Char)
    (hsecret : secret.length = 32) (hkey : key.length = 48)
    (hs : Hex.IsSpelling secret secretText) (hk : Hex.IsSpelling key keyText)
    (hlines : lines.Perm (keyPairLines secretText keyText s t))
    (hending : ending = [] ∨ ending = ['\n'])
    (hread : h.read p = .ok (Text.Utf8.encode (Line.join lines ++ ending))) :
    load .builtin h p = .ok
      { identifier := "0x" ++ Hex.encode key
        keyType := "file-raw"
        source? := some p
        secret? := some secret } := by
  have hsecret' : secret ≠ [] := by rintro rfl; cases hsecret
  have hkey' : key ≠ [] := by rintro rfl; cases hkey
  have htext : h.readText p = .ok (Line.join lines ++ ending) := by
    have hchars := isLineChar_keyPair hs hsecret' hk hkey' hlines hending
    rw [Host.readText_of_encode hread]
    exact congrArg Except.ok (Text.unifyLineEnds_of_not_mem fun hc =>
      (of_isLineChar (hchars _ hc)).2.2 rfl)
  obtain ⟨d, hdocument, htype, hprivate, hpublic⟩ := read_keyPair hs hsecret' hk hkey' hlines hending
  rw [load_of_get? _ htext hdocument htype, create_fileRaw htype,
    createRaw_keyPair hs hsecret hk hkey hprivate hpublic]
  rfl

/-- A private key with a mark, and digits in both letter cases. -/
def markedText : List Char :=
  "0X".toList ++ (List.replicate 32 "aB".toList).flatten

/-- A public key of decimal digits, the first of them a zero. -/
def decimalText : List Char :=
  (List.replicate 48 "07".toList).flatten

/-- A metadata file with the type between the two keys. -/
def keyPairHost : Host where
  files := ⟨[(["keys"], .directory), (["keys", "a.yaml"], .file (Text.Utf8.encode
    ("publicKey: '".toList ++ decimalText ++ "'\ntype: file-raw\nprivateKey: ".toList ++ markedText ++
      "\n".toList)))], by decide⟩
  workingDirectory := []
  home := "/home"

theorem load_keyPairHost :
    let secret := List.replicate 32 (0xab : UInt8)
    let key := List.replicate 48 (0x07 : UInt8)
    let lines : List Line := [⟨"publicKey".toList, decimalText, .quoted .single⟩,
      ⟨"type".toList, "file-raw".toList, .plain⟩, ⟨"privateKey".toList, markedText, .plain⟩]
    secret.length = 32 ∧ key.length = 48 ∧
    Hex.IsSpelling secret markedText ∧ Hex.IsSpelling key decimalText ∧
    lines.Perm (keyPairLines markedText decimalText .plain (.quoted .single)) ∧
    (['\n'] = [] ∨ ['\n'] = ['\n']) ∧
    keyPairHost.read (.ofString "keys/a.yaml") = .ok (Text.Utf8.encode (Line.join lines ++ ['\n'])) ∧
    load .builtin keyPairHost (.ofString "keys/a.yaml") = .ok
      { identifier := "0x" ++ Hex.encode key
        keyType := "file-raw"
        source? := some (.ofString "keys/a.yaml")
        secret? := some secret } := by
  intro secret key lines
  have hs : Hex.IsSpelling secret markedText := by
    refine ⟨"0X".toList, by decide, (List.replicate 32 "aB".toList).flatten, ?_, rfl⟩
    unfold Hex.Spells
    decide +kernel
  have hk : Hex.IsSpelling key decimalText := by
    refine ⟨[], by decide, decimalText, ?_, rfl⟩
    unfold Hex.Spells
    decide +kernel
  have hlines : lines.Perm (keyPairLines markedText decimalText .plain (.quoted .single)) :=
    (List.Perm.swap _ _ _).trans ((List.Perm.swap _ _ _).cons _)
  have hread : keyPairHost.read (.ofString "keys/a.yaml") =
      .ok (Text.Utf8.encode (Line.join lines ++ ['\n'])) :=
    toOption_eq_some.1 (by decide +kernel)
  exact ⟨rfl, rfl, hs, hk, hlines, .inr rfl, hread,
    load_keyPair keyPairHost _ secret key markedText decimalText .plain (.quoted .single) lines ['\n']
      rfl rfl hs hk hlines (.inr rfl) hread⟩

end MetadataFile

end Keyring
