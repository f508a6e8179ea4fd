import Mathlib
import WordFinder.Proofs.Probability.Order
import WordFinder.Proofs.Search.Complement
import WordFinder.WordInfo

/-!
# What is known about a word, by searching

The report on a word looks up its groups, its anagrams and its rank. A search for a group, for the
anagrams of a word or for a rank among words of a length comes to the same answers by implied
lengths, walks and judgements.
-/
set_option autoImplicit false

namespace WordFinder

variable {x : Lexicon} {word : String}

/-! ## Words of one length -/

theorem Pattern.splits_replicate_any {length : Nat} {word : List Char} (capitals : AreCapitals word) :
    Splits (List.replicate length .any) word ↔ word.length = length := by
  induction length generalizing word with
  | zero => rw [List.replicate_zero, splits_nil_iff, List.length_eq_zero_iff]
  | succ length ih =>
    rw [List.replicate_succ, splits_letter_iff (by decide)]
    constructor
    · intro holds
      obtain ⟨c, rest, rfl, _, others⟩ := holds
      rw [List.length_cons, (ih (areCapitals_cons.mp capitals).2).mp others]
    · intro long
      cases word with
      | nil => contradiction
      | cons c rest =>
        obtain ⟨capital, others⟩ := areCapitals_cons.mp capitals
        exact ⟨c, rest, rfl, Text.isAlpha_of_isUpper capital,
          (ih others).mpr (Nat.succ_injective long)⟩

namespace Lexicon

theorem Reached.mem_wordsOfLength_iff (reached : x.Reached) {length : Nat} :
    word ∈ x.wordsOfLength length ↔ word ∈ x.vocabulary ∧ word.length = length := by
  have found : word ∈ (x.graph.patternMatches ⟨List.replicate length .any⟩ {}).words ↔
      word ∈ x.vocabulary ∧ word.length = length := by
    rw [MatchSet.mem_words_iff, reached.isSound.isMirrored.contains_patternMatches,
      Pattern.isMatch_iff]
    refine and_congr_right fun member => ?_
    rw [Pattern.splits_replicate_any (reached.storable member).capitals, String.length_toList]
    exact and_iff_left (reached.isSound.admits_default member)
  rw [wordsOfLength]
  split
  · exact found
  · next outside =>
    refine iff_of_false List.not_mem_nil fun holds => outside ?_
    obtain ⟨member, rfl⟩ := holds
    have storable := reached.storable member
    rw [Bool.and_eq_true, decide_eq_true_eq, decide_eq_true_eq]
    exact ⟨storable.nonempty, storable.short⟩

theorem nodup_wordsOfLength (x : Lexicon) (length : Nat) : (x.wordsOfLength length).Nodup := by
  rw [wordsOfLength]
  split
  · exact MatchSet.nodup_words _
  · exact List.nodup_nil

theorem Reached.mem_orderOfLength_iff (reached : x.Reached) {length : Nat} {blanks : Int32} :
    word ∈ (x.orderOfLength length blanks).words ↔ word ∈ x.vocabulary ∧ word.length = length := by
  rw [orderOfLength, (ProbabilityOrder.words_ofWords_perm x.bag blanks true
    (x.nodup_wordsOfLength length)).mem_iff, reached.mem_wordsOfLength_iff]

theorem nodup_orderOfLength (x : Lexicon) (length : Nat) (blanks : Int32) :
    (x.orderOfLength length blanks).words.Nodup :=
  (ProbabilityOrder.words_ofWords_perm x.bag blanks true
    (x.nodup_wordsOfLength length)).nodup_iff.mpr (x.nodup_wordsOfLength length)

theorem Reached.length_orderOfLength (reached : x.Reached) (length : Nat) (blanks : Int32) :
    (x.orderOfLength length blanks).words.length =
      (x.vocabulary.filter (·.length = length)).length := by
  apply List.Perm.length_eq
  refine (List.perm_ext_iff_of_nodup (x.nodup_orderOfLength length blanks)
    (reached.nodup_vocabulary.filter _)).mpr fun word => ?_
  rw [reached.mem_orderOfLength_iff, List.mem_filter, decide_eq_true_eq]

end Lexicon

/-! ## Groups -/

theorem toInt_ofNat_length {length : Nat} (short : length ≤ 15) :
    (Int32.ofNat length).toInt = length :=
  Int32.toInt_ofNat_of_lt (by omega)

theorem SearchSpec.optimize_group (group : WordGroup) :
    (allOf [.ofText .belongsToGroup group.name]).optimize =
      (allOf ((group.length?.map fun n => Condition.ofRange .length (.ofNat n) (.ofNat n)).toList ++
        [.ofText .belongsToGroup group.name]), .normal) := by
  cases group <;> decide

namespace Lexicon

theorem meets_group (x : Lexicon) (word : String) (group : WordGroup) :
    x.meets word (.ofText .belongsToGroup group.name) = x.isMember word group := by
  have named : WordGroup.ofName? group.name = some group := by cases group <;> decide
  simp only [meets, meetsGroup, Condition.ofText, named, Condition.verdict, Bool.bne_false]

theorem meets_ofLength (x : Lexicon) (word : String) {length : Nat} (short : length ≤ 15) :
    x.meets word (.ofRange .length (.ofNat length) (.ofNat length)) = true ↔
      word.length = length := by
  simp only [meets, Condition.ofRange]
  rw [Condition.admits_iff, Window.Has, toInt_ofNat_length short]
  omega

theorem Reached.mem_search_group (reached : x.Reached) (member : word ∈ x.vocabulary)
    (group : WordGroup) :
    word ∈ x.search (.allOf [.ofText .belongsToGroup group.name]) ↔
      x.isMember word group = true := by
  have optimized := SearchSpec.optimize_group group
  rw [reached.mem_search_of_no_limits (List.forall_mem_singleton.mpr nofun)
    (by rw [optimized]) (by rw [optimized]; rfl) rfl, optimized, and_iff_right member, meetsAll,
    SearchSpec.allOf, List.all_append, Bool.and_eq_true, List.all_cons, List.all_nil, Bool.and_true,
    x.meets_group]
  refine and_iff_right_of_imp fun isMember => ?_
  cases sized : group.length? with
  | none => rfl
  | some length =>
    have short : length ≤ 15 := by
      revert sized
      cases group <;> simp [WordGroup.length?] <;> omega
    have long := Condition.length_of_isMember sized (reached.storable member).capitals isMember
    simpa using (x.meets_ofLength word short).mpr long

theorem Reached.groups_info (reached : x.Reached) (member : word ∈ x.vocabulary)
    (group : WordGroup) :
    group ∈ (x.info word).groups ↔
      word ∈ x.search (.allOf [.ofText .belongsToGroup group.name]) := by
  have listed : group ∈ WordGroup.all := by cases group <;> decide
  have valid : x.contains word = true := by
    rwa [reached.contains_iff, reached.upper_of_mem member]
  rw [reached.mem_search_group member, info, reached.upper_of_mem member, valid]
  simp only [if_true, groupsOf, List.mem_filter, listed, true_and]

/-! ## Anagrams -/

theorem Reached.mem_search_anagrams (reached : x.Reached) (member : word ∈ x.vocabulary)
    {other : String} :
    other ∈ x.search (.allOf [.ofText .anagramMatch word]) ↔ other ∈ x.rearrangements word := by
  have letters : ∀ c ∈ word.toList, c.isAlpha = true ∨ SearchString.isSign c = true :=
    fun c letter => Or.inl (Text.isAlpha_of_isUpper ((reached.storable member).capitals c letter))
  obtain ⟨rack, read, _, spells⟩ := reached.exists_rack_of_readable letters
  have meets : x.meets other (.ofText .anagramMatch word) = rack.spells other false := by
    simp only [Lexicon.meets, Condition.rackVerdict, Condition.ofText, read, Option.any_some,
      Condition.verdict, Bool.bne_false, reduceCtorEq, decide_false]
  have found : ¬(Condition.ofText .anagramMatch word).Overlooks x other := by
    intro overlooked
    exact absurd overlooked.subset (by simp [Condition.ofText])
  rw [reached.mem_search_of_positive rfl rfl, and_iff_left found, meets,
    ← reached.askedWords_of_mem member, mem_askedWords]
  exact and_congr_right fun known => spells other known

theorem Reached.anagrams_info (reached : x.Reached) (member : word ∈ x.vocabulary) :
    (x.info word).anagrams = (x.search (.allOf [.ofText .anagramMatch word])).length := by
  have nodup : (x.rearrangements word).Nodup := reached.nodup_vocabulary.filter _
  have same : (x.search (.allOf [.ofText .anagramMatch word])).Perm (x.rearrangements word) :=
    (List.perm_ext_iff_of_nodup (MatchSet.nodup_words _) nodup).mpr fun _ =>
      reached.mem_search_anagrams member
  rw [same.length_eq, info, reached.upper_of_mem member, reached.anagramCount_eq member]

end Lexicon

/-! ## Ranks -/

def Condition.atRank (blanks rank : Int32) : Condition :=
  { kind := .probabilityOrder, min := rank, max := rank, blanks }

def Window.ofLength (length : Nat) : Window :=
  (upTo beyondLengths).tighten (.ofNat length) (.ofNat length)

theorem Window.has_ofLength {length n : Nat} (short : length ≤ 15) :
    (ofLength length).Has n ↔ n = length := by
  rw [ofLength, has_tighten, Has, Has, upTo, Windows.toInt_zero, Windows.toInt_beyondLengths,
    toInt_ofNat_length short]
  omega

def SearchSpec.atRank (length : Nat) (blanks rank : Int32) : SearchSpec :=
  .allOf [.ofRange .length (.ofNat length) (.ofNat length), .atRank blanks rank]

theorem SearchSpec.optimize_atRank (blanks rank : Int32) (storable : IsStorable word.toList) :
    (atRank word.length blanks rank).optimize =
      (allOf (Windows.conditions { lengths := .ofLength word.length } ++ [.atRank blanks rank]),
        .normal) := by
  have short : word.length ≤ 15 := storable.short
  have added : Requirements.addAll {}
      ((atRank word.length blanks rank).conditions.map Condition.canonical) =
        if Windows.lengthsPossible { lengths := .ofLength word.length } then
          some { windows := { lengths := .ofLength word.length } }
        else none :=
    Option.bind_fun_some _
  have rest : ((atRank word.length blanks rank).conditions.map Condition.canonical).filter
      (fun c => !c.kind.isWindow) = [.atRank blanks rank] := rfl
  refine optimize_of_lengths (mergeAll_of_lengths added rest (List.cons_ne_nil _ _))
    (List.cons_ne_nil _ _) storable ((Window.has_ofLength short).mpr rfl) ?_
  rw [Window.ofLength, Window.tighten, Window.upTo, toInt_min, Windows.toInt_beyondLengths]
  omega

namespace Lexicon

theorem Reached.mem_search_atRank (reached : x.Reached) (member : word ∈ x.vocabulary)
    (blanks rank : Int32) :
    word ∈ x.search (.atRank word.length blanks rank) ↔
      ((x.orderOfLength word.length blanks).rank? word).map Int.ofNat = some rank.toInt := by
  have storable := reached.storable member
  have optimized := SearchSpec.optimize_atRank blanks rank storable
  have short : word.length ≤ 15 := storable.short
  have few : ∀ c ∈ (SearchSpec.atRank word.length blanks rank).conditions, c.HasFewClasses :=
    List.forall_mem_cons.mpr ⟨nofun, List.forall_mem_singleton.mpr nofun⟩
  have judged : x.meets word (.atRank blanks rank) =
      (x.orderOfLength word.length blanks).inRange word rank.toInt rank.toInt false := rfl
  rw [reached.mem_search_of_no_limits few (by rw [optimized]) (by rw [optimized]; rfl) rfl, optimized,
    and_iff_right member, meetsAll, SearchSpec.allOf, List.all_append, Bool.and_eq_true, ← meetsAll,
    meetsAll_lengths storable, Window.has_ofLength short, List.all_cons, List.all_nil,
    Bool.and_true, judged, ProbabilityOrder.inRange_self_iff, eq_self, true_and]

theorem Reached.rank?_info (reached : x.Reached) (member : word ∈ x.vocabulary) :
    (x.info word).rank? = (x.orderOfLength word.length infoBlanks).rank? word := by
  have valid : x.contains word = true := by
    rwa [reached.contains_iff, reached.upper_of_mem member]
  rw [info, reached.upper_of_mem member, valid]
  rfl

theorem Reached.exists_rank_info (reached : x.Reached) (few : x.wordCount < 2 ^ 31)
    (member : word ∈ x.vocabulary) :
    ∃ rank : Int32, (x.info word).rank?.map Int.ofNat = some rank.toInt := by
  have nodup := x.nodup_orderOfLength word.length infoBlanks
  obtain ⟨rank, ranked⟩ := ProbabilityOrder.exists_rank_of_mem nodup
    (reached.mem_orderOfLength_iff.mpr ⟨member, rfl⟩)
  have within : rank ≤ x.wordCount := by
    rw [← length_vocabulary]
    exact ((ProbabilityOrder.rank_bounds nodup ranked).2.trans_eq
      (reached.length_orderOfLength _ _)).trans (List.length_filter_le _ _)
  refine ⟨.ofNat rank, ?_⟩
  rw [reached.rank?_info member, ranked, Int32.toInt_ofNat_of_lt (by omega)]
  rfl

theorem Reached.existsUnique_rank_info (reached : x.Reached) {length rank : Nat}
    (positive : 0 < rank) (within : rank ≤ (x.vocabulary.filter (·.length = length)).length) :
    ∃! word, word ∈ x.vocabulary ∧ word.length = length ∧ (x.info word).rank? = some rank := by
  have nodup := x.nodup_orderOfLength length infoBlanks
  rw [← reached.length_orderOfLength length infoBlanks] at within
  obtain ⟨word, ranked, unique⟩ := ProbabilityOrder.existsUnique_of_rank nodup positive within
  have listed : word ∈ (x.orderOfLength length infoBlanks).words :=
    List.mem_of_getElem? ((ProbabilityOrder.rank?_eq_some_iff nodup).mp ranked).2
  obtain ⟨member, long⟩ := reached.mem_orderOfLength_iff.mp listed
  refine ⟨word, ⟨member, long, ?_⟩, fun other holds => ?_⟩
  · rwa [reached.rank?_info member, long]
  · obtain ⟨otherMember, otherLong, otherRanked⟩ := holds
    rw [reached.rank?_info otherMember, otherLong] at otherRanked
    exact unique other otherRanked

/-- What is told of a word of the vocabulary is what searches find: it is in the groups that it is
told to be in, its anagrams are as many as are told, and its rank is the one told, which no other word
of its length holds. -/
theorem Reached.info_by_search (reached : x.Reached) (few : x.wordCount < 2 ^ 31)
    (member : word ∈ x.vocabulary) :
    (∀ group, group ∈ (x.info word).groups ↔
        word ∈ x.search (.allOf [.ofText .belongsToGroup group.name])) ∧
      (x.info word).anagrams = (x.search (.allOf [.ofText .anagramMatch word])).length ∧
      (∀ rank : Int32, (x.info word).rank?.map Int.ofNat = some rank.toInt ↔
        word ∈ x.search (.atRank word.length infoBlanks rank)) ∧
      (∃ rank : Int32, (x.info word).rank?.map Int.ofNat = some rank.toInt) ∧
      ∀ rank : Nat, 0 < rank → rank ≤ (x.vocabulary.filter (·.length = word.length)).length →
        ∃! other, other ∈ x.vocabulary ∧ other.length = word.length ∧
          (x.info other).rank? = some rank := by
  refine ⟨reached.groups_info member, reached.anagrams_info member, fun rank => ?_,
    reached.exists_rank_info few member, fun rank => reached.existsUnique_rank_info⟩
  rw [reached.mem_search_atRank member, reached.rank?_info member]

/-- What is told of one of two anagrams. -/
theorem info_by_search_act :
    let x := actAndCat
    (∀ group, group ∈ (x.info "ACT").groups ↔
        "ACT" ∈ x.search (.allOf [.ofText .belongsToGroup group.name])) ∧
      (x.info "ACT").anagrams = (x.search (.allOf [.ofText .anagramMatch "ACT"])).length ∧
      (∀ rank : Int32, (x.info "ACT").rank?.map Int.ofNat = some rank.toInt ↔
        "ACT" ∈ x.search (.atRank 3 infoBlanks rank)) ∧
      (∃ rank : Int32, (x.info "ACT").rank?.map Int.ofNat = some rank.toInt) ∧
      ∀ rank : Nat, 0 < rank → rank ≤ (x.vocabulary.filter (·.length = 3)).length →
        ∃! other, other ∈ x.vocabulary ∧ other.length = 3 ∧ (x.info other).rank? = some rank := by
  have few : actAndCat.wordCount < 2 ^ 31 := by
    rw [← length_vocabulary, vocabulary_actAndCat]
    decide
  have member : "ACT" ∈ actAndCat.vocabulary := by
    rw [vocabulary_actAndCat]
    exact List.mem_cons_self
  exact reached_actAndCat.info_by_search few member

end Lexicon

end WordFinder
