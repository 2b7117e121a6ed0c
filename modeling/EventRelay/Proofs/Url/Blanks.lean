import EventRelay.Proofs.Text.Scanning
import EventRelay.Proofs.Text.Split
import EventRelay.Url.Parse

namespace EventRelay.Url

/-!
# Blanks at the end of a host

A text that ends in a blank or a control character is the host of no web page:
decoding leaves such a character alone, and no domain name may have one.
-/

open Text (splitWhere)
open Text.Utf8 (encode)

theorem ne_of_isTrimmed
    {character other : Char}
    (trimmed : isTrimmed character = true)
    (kept : isTrimmed other = false) :
    character ≠ other := by
  rintro rfl
  rw [trimmed] at kept
  cases kept

/-- What holds of the first characters holds of those that are trimmed. -/
theorem forall_isTrimmed
    (Holds : Char → Prop)
    (onFirst : ∀ code : Fin 0x21, Holds (Char.ofNat code.val))
    {character : Char}
    (isTrimmed : isTrimmed character = true) :
    Holds character := by
  have small : character.toNat ≤ 0x20 := of_decide_eq_true isTrimmed
  have holds := onFirst ⟨character.toNat, Nat.lt_succ_of_le small⟩
  rwa [Char.ofNat_toNat] at holds

/--
A byte that neither is a percent sign nor may follow one is decoded as itself.
-/
theorem decodeBytes_concat
    (bytes : List UInt8)
    {byte : UInt8}
    (notHex : Text.Percent.hexByte? byte = none) :
    Text.Percent.decodeBytes (bytes ++ [byte]) =
      Text.Percent.decodeBytes bytes ++ [byte] := by
  fun_induction Text.Percent.decodeBytes bytes with
  | case1 =>
      simp [Text.Percent.decodeBytes]
  | case2 high low rest highValue lowValue isLow isHigh inductionHypothesis =>
      simp [Text.Percent.decodeBytes, isLow, isHigh, inductionHypothesis]
  | case3 high low rest notBoth inductionHypothesis =>
      simp only [List.cons_append] at inductionHypothesis ⊢
      rw [← inductionHypothesis, Text.Percent.decodeBytes, if_pos rfl]
      split
      · next isHigh isLow =>
          exact (notBoth _ _ isHigh isLow).elim
      · rfl
  | case4 first high low rest notMark inductionHypothesis =>
      simpa [Text.Percent.decodeBytes, notMark] using inductionHypothesis
  | case5 first rest short inductionHypothesis =>
      match rest with
      | [] =>
          simp [Text.Percent.decodeBytes]
      | [next] =>
          simp only [List.cons_append, List.nil_append] at inductionHypothesis ⊢
          rw [← inductionHypothesis, Text.Percent.decodeBytes]
          simp [notHex]
      | high :: low :: rest =>
          exact (short high low rest rfl).elim

private theorem hexByte?_of_isTrimmed
    {character : Char}
    (isTrimmed : isTrimmed character = true) :
    Text.Percent.hexByte? character.toNat.toUInt8 = none :=
  forall_isTrimmed
    (fun first => Text.Percent.hexByte? first.toNat.toUInt8 = none)
    (by decide) isTrimmed

/-- A character below 0x80 at the end of well-formed bytes is decoded. -/
theorem mem_of_decode?_concat
    {byte : UInt8}
    (single : byte < 0x80)
    {bytes : List UInt8}
    {text : List Char}
    (decodes : Text.Utf8.decode? (bytes ++ [byte]) = some text) :
    Char.ofNat byte.toNat ∈ text := by
  have scans :
      Text.Utf8.scan (bytes ++ [byte]) =
        Text.Utf8.scan bytes ++ [some (Char.ofNat byte.toNat)] :=
    Text.Utf8.scanFrom_append_cons Text.Utf8.isStarted_none
      (UInt8.lt_iff_toNat_lt.mp single) [] bytes []
  simp only [Text.Utf8.decode?, scans] at decodes
  split at decodes
  · rw [← Option.some.inj decodes]
    simp
  · cases decodes

private theorem mapChar_of_isTrimmed
    {character : Char}
    (isTrimmed : isTrimmed character = true) :
    Domain.mapChar character = [character] :=
  forall_isTrimmed
    (fun first => Domain.mapChar first = [first])
    (by decide +kernel) isTrimmed

private theorem mem_writePass_output
    {basic : Nat}
    {character : Char}
    {encoder : Punycode.Encoder}
    (isMember : character ∈ encoder.output)
    (next : Nat) :
    character ∈ (Punycode.writePass basic encoder next).output := by
  unfold Punycode.writePass
  split
  · exact isMember
  · split
    · exact List.mem_append_left _ isMember
    · exact isMember

/-- The ASCII characters of a label are among those of its Punycode. -/
private theorem mem_punycode
    {character : Char}
    {label : List Char}
    (isMember : character ∈ label)
    (isAscii : character.toNat < 0x80) :
    character ∈ Punycode.encode label := by
  have basic : character ∈ label.filter (·.toNat < Punycode.firstCode) :=
    List.mem_filter.mpr ⟨isMember, decide_eq_true isAscii⟩
  let Keeps (encoder : Punycode.Encoder) : Prop :=
    character ∈ encoder.output
  have keepsPass : ∀ {count encoder} (codes : List Nat), Keeps encoder →
      Keeps (codes.foldl (Punycode.writePass count) encoder) :=
    fun codes keeps =>
      List.foldlRecOn (motive := Keeps) codes _ keeps
        fun _ keeps next _ => mem_writePass_output keeps next
  refine List.foldlRecOn (motive := Keeps) _ _ ?_ ?_
  · have nonempty : (label.filter (·.toNat < Punycode.firstCode)).isEmpty =
        false :=
      List.isEmpty_eq_false_iff.mpr (List.ne_nil_of_mem basic)
    change character ∈ ite _ _ _
    rw [nonempty]
    exact List.mem_append_left _ basic
  · exact fun encoder keeps code _ => keepsPass _ keeps

/-- The ASCII characters of a label stay in its ASCII form. -/
theorem mem_asciiLabel?
    {character : Char}
    {label written : List Char}
    (isMember : character ∈ label)
    (isAscii : character.toNat < 0x80)
    (writes : Domain.asciiLabel? label = some written) :
    character ∈ written := by
  unfold Domain.asciiLabel? at writes
  split at writes
  · split at writes
    · exact Option.some.inj writes ▸ isMember
    · cases writes
  · split at writes
    · exact Option.some.inj writes ▸ isMember
    · split at writes
      · rw [← Option.some.inj writes]
        exact List.mem_append_right _ (mem_punycode isMember isAscii)
      · cases writes

/-- A character stays in the pieces that a list is cut into. -/
theorem exists_mem_splitWhere
    (separates : Char → Bool)
    {character : Char}
    {text : List Char}
    (isMember : character ∈ text)
    (clear : separates character = false) :
    ∃ piece ∈ splitWhere separates text, character ∈ piece := by
  induction text with
  | nil =>
      cases isMember
  | cons first rest inductionHypothesis =>
      obtain ⟨head, pieces, shape⟩ :=
        Text.exists_splitWhere separates rest
      rw [Text.splitWhere_cons]
      rw [shape] at inductionHypothesis ⊢
      rcases List.mem_cons.mp isMember with rfl | later
      · rw [clear]
        exact ⟨_, List.mem_cons_self, List.mem_cons_self⟩
      · obtain ⟨piece, isPiece, among⟩ := inductionHypothesis later
        split
        · exact ⟨piece, List.mem_cons_of_mem _ isPiece, among⟩
        · rcases List.mem_cons.mp isPiece with rfl | isLater
          · exact ⟨_, List.mem_cons_self, List.mem_cons_of_mem _ among⟩
          · exact ⟨piece, List.mem_cons_of_mem _ isLater, among⟩

private theorem exists_mem_of_mapM
    {read : α → Option β}
    {items : List α}
    {results : List β}
    (reads : items.mapM read = some results)
    {item : α}
    (isMember : item ∈ items) :
    ∃ result ∈ results, read item = some result := by
  induction items generalizing results with
  | nil =>
      cases isMember
  | cons first items inductionHypothesis =>
      rw [List.mapM_cons] at reads
      obtain ⟨result, readFirst, reads⟩ := Option.bind_eq_some_iff.mp reads
      obtain ⟨others, readOthers, reads⟩ := Option.bind_eq_some_iff.mp reads
      obtain rfl := Option.some.inj reads
      rcases List.mem_cons.mp isMember with rfl | later
      · exact ⟨result, List.mem_cons_self, readFirst⟩
      · obtain ⟨other, isOther, readsIt⟩ :=
          inductionHypothesis readOthers later
        exact ⟨other, List.mem_cons_of_mem _ isOther, readsIt⟩

private theorem mem_intercalate
    {separator piece : List Char}
    {pieces : List (List Char)}
    {character : Char}
    (isPiece : piece ∈ pieces)
    (isMember : character ∈ piece) :
    character ∈ separator.intercalate pieces := by
  obtain ⟨place, isAt⟩ := List.getElem?_of_mem isPiece
  have among : piece ∈ pieces.intersperse separator :=
    List.mem_of_getElem? (List.getElem?_intersperse_two_mul.trans isAt)
  exact List.mem_flatten.mpr ⟨piece, among, isMember⟩

/-- No domain name ends in a blank or a control character. -/
private theorem toAscii?_concat
    (bytes : List UInt8)
    {character : Char}
    (isTrimmed : isTrimmed character = true) :
    Domain.toAscii? (bytes ++ [character.toNat.toUInt8]) = none := by
  have small : character.toNat ≤ 0x20 := of_decide_eq_true isTrimmed
  have isByte : character.toNat.toUInt8.toNat = character.toNat :=
    Text.Utf8.toNat_toUInt8 (by omega)
  have isAscii : character.toNat < 0x80 := by omega
  rw [Option.eq_none_iff_forall_ne_some]
  intro name reads
  simp only [Domain.toAscii?, Option.bind_eq_bind, Option.bind_eq_some_iff]
    at reads
  obtain ⟨text, decodes, labels, writes, reads⟩ := reads
  have single : character.toNat.toUInt8 < 0x80 := by
    rw [UInt8.lt_iff_toNat_lt, isByte]
    exact isAscii
  have inText : character ∈ text := by
    have inDecoded := mem_of_decode?_concat single decodes
    rwa [isByte, Char.ofNat_toNat] at inDecoded
  have inMapped : character ∈ text.flatMap Domain.mapChar :=
    List.mem_flatMap.mpr ⟨character, inText, by
      rw [mapChar_of_isTrimmed isTrimmed]
      exact List.mem_singleton_self character⟩
  obtain ⟨piece, isPiece, inPiece⟩ :=
    exists_mem_splitWhere (· == '.') inMapped
      (beq_false_of_ne (ne_of_isTrimmed isTrimmed rfl))
  obtain ⟨label, isLabel, writesLabel⟩ := exists_mem_of_mapM writes isPiece
  have inName : character ∈ ['.'].intercalate labels :=
    mem_intercalate isLabel (mem_asciiLabel? inPiece isAscii writesLabel)
  have forbidden : (['.'].intercalate labels).any Domain.isForbidden = true :=
    List.any_eq_true.mpr ⟨character, inName, by
      simp [Domain.isForbidden, small]⟩
  rw [if_pos forbidden] at reads
  cases reads

/-- No host of a web page ends in a blank or a control character. -/
theorem ofDomain_concat
    (text : List Char)
    {character : Char}
    (isTrimmed : isTrimmed character = true)
    (host : Host) :
    Host.ofDomain (text ++ [character]) ≠ .ok host := by
  intro reads
  have small : character.toNat ≤ 0x20 := of_decide_eq_true isTrimmed
  unfold Host.ofDomain at reads
  split at reads
  · next rest shape =>
      cases text with
      | nil =>
          exact ne_of_isTrimmed isTrimmed rfl (List.cons.inj shape).1
      | cons first text =>
          have isRest : text ++ [character] = rest := (List.cons.inj shape).2
          have unclosed : (text ++ [character]).getLast? ≠ some ']' := by
            rw [List.getLast?_concat]
            exact fun closes =>
              ne_of_isTrimmed isTrimmed rfl (Option.some.inj closes)
          rw [← isRest, Host.bracketed, if_neg unclosed] at reads
          cases reads
  · have single : encode [character] = [character.toNat.toUInt8] := by
      rw [encode, List.flatMap_singleton]
      exact Text.Utf8.encodeChar_of_single
        (Nat.lt_of_le_of_lt small (by decide))
    have decodes : Text.Percent.decode (text ++ [character]) =
        Text.Percent.decode text ++ [character.toNat.toUInt8] := by
      rw [Text.Percent.decode, Text.Utf8.encode_append, single]
      exact decodeBytes_concat _ (hexByte?_of_isTrimmed isTrimmed)
    rw [decodes, toAscii?_concat _ isTrimmed] at reads
    cases reads

end EventRelay.Url
