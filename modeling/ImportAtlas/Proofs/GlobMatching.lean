import ImportAtlas.Glob.Match
import ImportAtlas.Proofs.PathText

/-!
# What globs match

Globs are matched byte by byte, with what may follow a token as a continuation.
A byte below 128 is a character of its own in the encoding of a text, so that
dots and slashes split the bytes of a text where they split its characters.
-/

namespace ImportAtlas.Glob

/-! ## Bytes of texts -/

def bytes (letters : List Char) : List UInt8 :=
  letters.flatMap String.utf8EncodeChar

@[simp] theorem bytes_cons (c : Char) (letters : List Char) :
    bytes (c :: letters) = String.utf8EncodeChar c ++ bytes letters := rfl

theorem bytes_append (first second : List Char) :
    bytes (first ++ second) = bytes first ++ bytes second :=
  List.flatMap_append

theorem toByteArray_bytes (letters : List Char) :
    (bytes letters).toByteArray = letters.utf8Encode := rfl

theorem bytes_injective {first second : List Char}
    (h : bytes first = bytes second) : first = second := by
  have hencoded := congrArg List.toByteArray h
  rw [toByteArray_bytes, toByteArray_bytes, ← String.toByteArray_ofList,
    ← String.toByteArray_ofList, String.toByteArray_inj] at hencoded
  exact String.ofList_inj.1 hencoded

private theorem toList_loop (read rest : List UInt8) :
    ByteArray.toList.loop (read ++ rest).toByteArray read.length read.reverse =
      read ++ rest := by
  induction rest generalizing read with
  | nil =>
      rw [ByteArray.toList.loop, if_neg (by simp)]
      simp
  | cons byte rest ih =>
      have hnext :
          (read ++ byte :: rest).toByteArray.get! read.length = byte := by
        rw [ByteArray.get!, ← Array.getElem!_toList,
          List.toList_data_toByteArray]
        simp
      have hmore := ih (read ++ [byte])
      rw [ByteArray.toList.loop, if_pos (by simp), hnext]
      simpa using hmore

private theorem toList_toUTF8 (text : String) :
    text.toUTF8.toList = bytes text.toList := by
  rw [String.toUTF8_eq_toByteArray, ← String.utf8Encode_toList,
    ← toByteArray_bytes, ByteArray.toList]
  exact toList_loop [] _

private theorem utf8EncodeChar_eq_of_mem {c : Char} {byte : UInt8}
    (hmem : byte ∈ String.utf8EncodeChar c) (hbyte : byte.toNat < 128) :
    String.utf8EncodeChar c = [byte] := by
  have hsmall : c.val.toNat ≤ 0x7f := by
    by_contra hlarge
    unfold String.utf8EncodeChar at hmem
    simp only [if_neg hlarge] at hmem
    split at hmem
    · rcases hmem with _ | ⟨_, _ | ⟨_, _ | _⟩⟩ <;>
        rw [UInt8.toNat_ofNat'] at hbyte <;> omega
    · split at hmem
      · rcases hmem with _ | ⟨_, _ | ⟨_, _ | ⟨_, _ | _⟩⟩⟩ <;>
          rw [UInt8.toNat_ofNat'] at hbyte <;> omega
      · rcases hmem with _ | ⟨_, _ | ⟨_, _ | ⟨_, _ | ⟨_, _ | _⟩⟩⟩⟩ <;>
          rw [UInt8.toNat_ofNat'] at hbyte <;> omega
  unfold String.utf8EncodeChar at hmem ⊢
  simp_all

/-- A small byte splits the bytes of a text where its character splits the
text. -/
theorem bytes_eq_append_cons {mark : Char} {byte : UInt8}
    (hmark : String.utf8EncodeChar mark = [byte]) (hbyte : byte.toNat < 128)
    {letters : List Char} {before rest : List UInt8} :
    bytes letters = before ++ byte :: rest ↔
      ∃ first second, letters = first ++ mark :: second ∧ before = bytes first ∧
        rest = bytes second := by
  constructor
  · intro h
    induction letters generalizing before with
    | nil => simp [bytes] at h
    | cons c letters ih =>
        rw [bytes_cons, List.append_eq_append_iff] at h
        rcases h with ⟨more, rfl, hmore⟩ | ⟨part, hpart, hrest⟩
        · obtain ⟨first, second, rfl, rfl, rfl⟩ := ih hmore
          exact ⟨c :: first, second, rfl, rfl, rfl⟩
        · cases part with
          | nil =>
              have hletters : bytes letters = [] ++ byte :: rest := hrest.symm
              obtain ⟨first, second, rfl, hfirst, rfl⟩ := ih hletters
              refine ⟨c :: first, second, rfl, ?_, rfl⟩
              rw [bytes_cons, hpart, ← hfirst, List.append_nil, List.append_nil]
          | cons other others =>
              rw [List.cons_append, List.cons.injEq] at hrest
              obtain ⟨rfl, rfl⟩ := hrest
              have hwhole :=
                utf8EncodeChar_eq_of_mem (c := c) (by rw [hpart]; simp) hbyte
              have hbytes : bytes [c] = bytes [mark] := by simp [hwhole, hmark]
              obtain rfl : c = mark :=
                List.singleton_inj.1 (bytes_injective hbytes)
              rw [hwhole, eq_comm, List.append_eq_singleton_iff] at hpart
              obtain ⟨rfl, hothers⟩ | ⟨-, hothers⟩ := hpart
              · obtain rfl := (List.cons.inj hothers).2
                exact ⟨[], letters, rfl, rfl, rfl⟩
              · contradiction
  · rintro ⟨first, second, rfl, rfl, rfl⟩
    rw [bytes_append, bytes_cons, hmark, List.singleton_append]

/-! ## Parts of a text -/

section Accept

variable {accept : List UInt8 → Bool}

theorem anyRest_iff {text : List UInt8} :
    anyRest accept text = true ↔
      ∃ before rest, text = before ++ rest ∧ accept rest = true := by
  induction text with
  | nil => simp [anyRest]
  | cons byte text ih =>
      rw [anyRest, Bool.or_eq_true, ih]
      constructor
      · rintro (hhere | ⟨before, rest, rfl, hrest⟩)
        · exact ⟨[], _, rfl, hhere⟩
        · exact ⟨byte :: before, rest, rfl, hrest⟩
      · rintro ⟨before, rest, htext, hrest⟩
        cases before with
        | nil => exact .inl (htext ▸ hrest)
        | cons other before =>
          exact .inr ⟨before, rest, (List.cons.inj htext).2, hrest⟩

private theorem afterSlash_iff {text : List UInt8} :
    afterSlash accept text = true ↔
      ∃ before rest, text = before ++ 47 :: rest ∧ accept rest = true := by
  induction text with
  | nil => simp [afterSlash]
  | cons byte text ih =>
      rw [afterSlash, Bool.or_eq_true, ih, Bool.and_eq_true, beq_iff_eq]
      constructor
      · rintro (⟨rfl, hhere⟩ | ⟨before, rest, rfl, hrest⟩)
        · exact ⟨[], _, rfl, hhere⟩
        · exact ⟨byte :: before, rest, rfl, hrest⟩
      · rintro ⟨before, rest, htext, hrest⟩
        cases before with
        | nil =>
            obtain ⟨rfl, rfl⟩ := List.cons.inj htext
            exact .inl ⟨rfl, hrest⟩
        | cons other before =>
          exact .inr ⟨before, rest, (List.cons.inj htext).2, hrest⟩

theorem afterBytes_iff {expected text : List UInt8} :
    afterBytes accept expected text = true ↔
      ∃ rest, text = expected ++ rest ∧ accept rest = true := by
  induction expected generalizing text with
  | nil => simp [afterBytes]
  | cons byte expected ih =>
      cases text with
      | nil => simp [afterBytes]
      | cons other text =>
          rw [afterBytes, Bool.and_eq_true, beq_iff_eq, ih]
          constructor
          · rintro ⟨rfl, rest, rfl, hrest⟩
            exact ⟨rest, rfl, hrest⟩
          · rintro ⟨rest, htext, hrest⟩
            obtain ⟨rfl, rfl⟩ := List.cons.inj htext
            exact ⟨rfl, rest, rfl, hrest⟩

/-! ## Tokens -/

def literals (text : String) : List Token :=
  text.toList.map .literal

theorem acceptsAll_literal_letters (letters : List Char) (tokens : List Token)
    {text : List UInt8} :
    acceptsAll accept (letters.map .literal ++ tokens) text = true ↔
      ∃ rest, text = bytes letters ++ rest ∧
        acceptsAll accept tokens rest = true := by
  induction letters generalizing text with
  | nil => simp [bytes]
  | cons c letters ih =>
      rw [List.map_cons, List.cons_append, acceptsAll, Token.accepts,
        afterBytes_iff]
      simp only [ih, bytes_cons, List.append_assoc]
      constructor
      · rintro ⟨_, rfl, rest, rfl, hrest⟩
        exact ⟨rest, rfl, hrest⟩
      · rintro ⟨rest, rfl, hrest⟩
        exact ⟨_, rfl, rest, rfl, hrest⟩

theorem acceptsAll_literals {name : String} {text : List UInt8} :
    acceptsAll List.isEmpty (literals name) text = true ↔
      text = bytes name.toList := by
  rw [← List.append_nil (literals name), literals, acceptsAll_literal_letters]
  simp [acceptsAll]

theorem branchIsVoid_literals {name : String} (h : name ≠ "") :
    branchIsVoid (literals name) = false := by
  obtain ⟨c, letters, hletters⟩ : ∃ c letters, name.toList = c :: letters :=
    List.exists_cons_of_ne_nil fun hnil => h (String.toList_inj.1 hnil)
  simp [literals, hletters, branchIsVoid, Token.isVoid]

private theorem acceptsSome_iff {branches : List (List Token)}
    {text : List UInt8} :
    acceptsSome accept branches text = true ↔
      ∃ branch ∈ branches, branchIsVoid branch = false ∧
        acceptsAll accept branch text = true := by
  induction branches with
  | nil => simp [acceptsSome]
  | cons branch branches ih => simp [acceptsSome, ih]

end Accept

/-! ## Segments -/

def FromSegment (letters rest : List Char) : Prop :=
  rest = letters ∨ ∃ before, letters = before ++ '/' :: rest

private theorem intercalate_splitAtSlash (letters : List Char) :
    ['/'].intercalate (Path.splitAtSlash letters) = letters := by
  induction letters with
  | nil => rfl
  | cons c letters ih =>
      obtain ⟨piece, pieces, hsplit⟩ := Path.exists_splitAtSlash_eq_cons letters
      by_cases hslash : c = '/'
      · subst hslash
        rw [Path.splitAtSlash_slash, hsplit, List.intercalate_cons_cons,
          ← hsplit, ih]
        rfl
      · rw [Path.splitAtSlash_cons hslash hsplit,
          List.intercalate_cons_cons_left, ← hsplit, ih]

private theorem fromSegment_intercalate (before after : List (List Char))
    (hafter : after ≠ []) :
    FromSegment (['/'].intercalate (before ++ after))
      (['/'].intercalate after) := by
  induction before with
  | nil => exact .inl rfl
  | cons piece before ih =>
      rw [List.cons_append, List.intercalate_cons_of_ne_nil (by simp [hafter])]
      rcases ih with heq | ⟨more, hmore⟩
      · exact .inr ⟨piece, by rw [heq]; simp⟩
      · exact .inr ⟨piece ++ '/' :: more, by rw [hmore]; simp⟩

private theorem mem_splitAtSlash {letters piece : List Char}
    (hpiece : '/' ∉ piece) :
    piece ∈ Path.splitAtSlash letters ↔
      ∃ rest, FromSegment letters rest ∧
        (rest = piece ∨ ∃ more, rest = piece ++ '/' :: more) := by
  constructor
  · intro hmem
    obtain ⟨before, after, hsplit⟩ := List.append_of_mem hmem
    have hsegment := fromSegment_intercalate before (piece :: after) (by simp)
    rw [← hsplit, intercalate_splitAtSlash] at hsegment
    refine ⟨['/'].intercalate (piece :: after), hsegment, ?_⟩
    cases after with
    | nil => exact .inl List.intercalate_singleton
    | cons next after =>
        refine .inr ⟨['/'].intercalate (next :: after), ?_⟩
        rw [List.intercalate_cons_cons, List.append_assoc,
          List.singleton_append]
  · rintro ⟨rest, hrest, hpart⟩
    have hhead : piece ∈ Path.splitAtSlash rest := by
      rcases hpart with rfl | ⟨more, rfl⟩
      · simp [Path.splitAtSlash_of_not_mem hpiece]
      · simp [Path.splitAtSlash_append, Path.splitAtSlash_of_not_mem hpiece]
    rcases hrest with rfl | ⟨before, rfl⟩
    · exact hhead
    · rw [Path.splitAtSlash_append]
      exact List.mem_append_right _ hhead

theorem encode_slash : String.utf8EncodeChar '/' = [47] := rfl

private theorem accepts_cons {token : Token} {tokens : List Token}
    (h : tokens ≠ []) (text : String) :
    accepts (token :: tokens) text =
      acceptsAll List.isEmpty (token :: tokens) (bytes text.toList) := by
  rw [← toList_toUTF8, accepts]
  intro hlone
  exact h (List.cons.inj hlone).2

theorem accepts_directoriesBefore {tokens : List Token} (h : tokens ≠ [])
    (text : String) :
    accepts (.directoriesBefore :: tokens) text = true ↔
      ∃ rest, FromSegment text.toList rest ∧
        acceptsAll List.isEmpty tokens (bytes rest) = true := by
  rw [accepts_cons h, acceptsAll, Token.accepts, Bool.or_eq_true,
    afterSlash_iff]
  constructor
  · rintro (hhere | ⟨before, rest, hsplit, hrest⟩)
    · exact ⟨_, .inl rfl, hhere⟩
    · obtain ⟨first, second, hletters, -, rfl⟩ :=
        (bytes_eq_append_cons encode_slash (by decide)).1 hsplit
      exact ⟨second, .inr ⟨first, hletters⟩, hrest⟩
  · rintro ⟨rest, rfl | ⟨before, hletters⟩, hrest⟩
    · exact .inl hrest
    · exact .inr ⟨bytes before, bytes rest, by rw [hletters, bytes_append]; rfl,
        hrest⟩

private theorem accepts_name {name : String} (hname : name ≠ "")
    {text : String} :
    accepts (.directoriesBefore :: literals name) text = true ↔
      FromSegment text.toList name.toList := by
  have hliterals : literals name ≠ [] := by simpa [literals] using hname
  simp only [accepts_directoriesBefore hliterals, acceptsAll_literals]
  constructor
  · rintro ⟨rest, hsegment, hrest⟩
    exact bytes_injective hrest ▸ hsegment
  · intro hsegment
    exact ⟨_, hsegment, rfl⟩

private theorem acceptsAll_everythingBelow {text : List UInt8} :
    acceptsAll List.isEmpty [.everythingBelow] text = true ↔
      ∃ rest, text = 47 :: rest := by
  cases text with
  | nil => simp [acceptsAll, Token.accepts]
  | cons byte text =>
      by_cases hslash : byte = 47
      · subst hslash
        have hall : anyRest List.isEmpty text = true :=
          anyRest_iff.2 ⟨text, [], by simp⟩
        simpa [acceptsAll, Token.accepts] using hall
      · simp [acceptsAll, Token.accepts, hslash]

private theorem accepts_below {name text : String} :
    accepts (.directoriesBefore :: (literals name ++ [.everythingBelow]))
      text = true ↔
      ∃ more, FromSegment text.toList (name.toList ++ '/' :: more) := by
  have hbelow {rest : List Char} : acceptsAll List.isEmpty (literals name ++
      [.everythingBelow]) (bytes rest) = true ↔
      ∃ more, rest = name.toList ++ '/' :: more := by
    rw [literals, acceptsAll_literal_letters]
    simp only [acceptsAll_everythingBelow]
    constructor
    · rintro ⟨_, hrest, more, rfl⟩
      obtain ⟨first, second, rfl, hfirst, -⟩ :=
        (bytes_eq_append_cons encode_slash (by decide)).1 hrest
      exact ⟨second, by rw [bytes_injective hfirst]⟩
    · rintro ⟨more, rfl⟩
      exact ⟨_, bytes_append _ _, bytes more, rfl⟩
  rw [accepts_directoriesBefore (by simp)]
  simp only [hbelow]
  constructor
  · rintro ⟨_, hsegment, more, rfl⟩
    exact ⟨more, hsegment⟩
  · rintro ⟨more, hsegment⟩
    exact ⟨_, hsegment, more, rfl⟩

/-- A name between directories, alone and with all that lies below it, matches
where it is a segment. -/
theorem accepts_segment_iff {name : String} (hname : name ≠ "")
    (hslash : '/' ∉ name.toList) {text : String} :
    accepts (.directoriesBefore :: literals name) text = true ∨
        accepts (.directoriesBefore :: (literals name ++ [.everythingBelow]))
          text = true ↔
      name.toList ∈ Path.splitAtSlash text.toList := by
  rw [accepts_name hname, accepts_below, mem_splitAtSlash hslash]
  constructor
  · rintro (hsegment | ⟨more, hsegment⟩)
    · exact ⟨_, hsegment, .inl rfl⟩
    · exact ⟨_, hsegment, .inr ⟨more, rfl⟩⟩
  · rintro ⟨rest, hsegment, rfl | ⟨more, rfl⟩⟩
    · exact .inl hsegment
    · exact .inr ⟨more, hsegment⟩

theorem acceptsAll_alternatives {names : List String} (hne : names ≠ [])
    (hnames : ∀ name ∈ names, name ≠ "") {text : List UInt8} :
    acceptsAll List.isEmpty [.alternatives (names.map literals)] text = true ↔
      ∃ name ∈ names, text = bytes name.toList := by
  have hvoid : areVoid (names.map literals) = false := by
    obtain ⟨name, others, rfl⟩ := List.exists_cons_of_ne_nil hne
    simp [areVoid, branchIsVoid_literals (hnames name List.mem_cons_self)]
  have hbranch : ∀ name ∈ names, branchIsVoid (literals name) = false :=
    fun name hname => branchIsVoid_literals (hnames name hname)
  simp only [acceptsAll, Token.accepts, hvoid, Bool.false_eq_true, if_false,
    acceptsSome_iff, List.mem_map]
  constructor
  · rintro ⟨_, ⟨name, hname, rfl⟩, -, htext⟩
    exact ⟨name, hname, acceptsAll_literals.1 htext⟩
  · rintro ⟨name, hname, htext⟩
    exact ⟨_, ⟨name, hname, rfl⟩, hbranch name hname,
      acceptsAll_literals.2 htext⟩

theorem accepts_extension_iff {extensions : List String} (hne : extensions ≠ [])
    (hextensions : ∀ extension ∈ extensions, extension ≠ "") {text : String} :
    accepts [.directoriesBefore, .anyMany, .literal '.',
      .alternatives (extensions.map literals)] text = true ↔
      ∃ extension ∈ extensions, ∃ stem, text = stem ++ "." ++ extension := by
  have hdot : String.utf8EncodeChar '.' = [46] := rfl
  have hend {rest : List Char} :
      acceptsAll List.isEmpty [.anyMany, .literal '.',
        .alternatives (extensions.map literals)] (bytes rest) = true ↔
        ∃ extension ∈ extensions,
          ∃ stem, rest = stem ++ '.' :: extension.toList := by
    rw [acceptsAll, Token.accepts, anyRest_iff]
    constructor
    · rintro ⟨before, _, hrest, hdotted⟩
      rw [acceptsAll, Token.accepts, afterBytes_iff] at hdotted
      obtain ⟨_, rfl, hlast⟩ := hdotted
      obtain ⟨extension, hextension, rfl⟩ :=
        (acceptsAll_alternatives hne hextensions).1 hlast
      rw [hdot, List.singleton_append] at hrest
      obtain ⟨first, second, rfl, -, hsecond⟩ :=
        (bytes_eq_append_cons hdot (by decide)).1 hrest
      exact ⟨extension, hextension, first, by rw [bytes_injective hsecond]⟩
    · rintro ⟨extension, hextension, stem, rfl⟩
      refine ⟨bytes stem, bytes ('.' :: extension.toList), bytes_append _ _, ?_⟩
      rw [acceptsAll, Token.accepts, afterBytes_iff]
      exact ⟨_, bytes_cons _ _, (acceptsAll_alternatives hne hextensions).2
        ⟨extension, hextension, rfl⟩⟩
  rw [accepts_directoriesBefore (by simp)]
  simp only [hend]
  constructor
  · rintro ⟨_, hsegment, extension, hextension, stem, rfl⟩
    refine ⟨extension, hextension, ?_⟩
    rcases hsegment with htext | ⟨before, htext⟩
    · exact ⟨String.ofList stem, by rw [← String.toList_inj, ← htext]; simp⟩
    · exact ⟨String.ofList (before ++ '/' :: stem),
        by rw [← String.toList_inj, htext]; simp⟩
  · rintro ⟨extension, hextension, stem, rfl⟩
    exact ⟨_, .inl rfl, extension, hextension, stem.toList, by simp⟩

end ImportAtlas.Glob
