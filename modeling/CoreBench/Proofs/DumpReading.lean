import CoreBench.Proofs.DumpWords
import CoreBench.Proofs.Histories
import CoreBench.Proofs.Loading

/-!
How the loader divides the words of a dump. Wherever it stands, the words that it still takes
without an error are the rest of a dump: among the definitions, sections up to the one that ends
them; among the changes, items. What it records are the changes that these items write.
-/

namespace CoreBench.Waveform

namespace Progress

/-- The loader takes the words, on some lines, and comes to the other state. -/
def Leads (progress : Progress) : List (List Char) → Progress → Prop
  | [], final => progress = final
  | word :: rest, final => ∃ line next, progress.step ⟨line, word⟩ = .ok next ∧ next.Leads rest final

theorem leads_of_run (tokens : List Token) (progress final : Progress)
    (ran : tokens.foldlM step progress = .ok final) :
    progress.Leads (tokens.map Token.text) final := by
  induction tokens generalizing progress with
  | nil =>
      cases ran
      rfl
  | cons token tokens ih =>
      obtain ⟨next, stepped, later⟩ := (run_cons_ok_iff token tokens progress final).mp ran
      exact ⟨token.line, next, stepped, ih next later⟩

/-- A dump may end here. -/
def Over (progress : Progress) : Prop :=
  progress.place = .changes ∨ progress.place = .real

theorem over_of_finish (progress : Progress) (waveform : Waveform)
    (finished : progress.finish = .ok waveform) : progress.Over := by
  rw [finish] at finished
  rw [Over]
  split at finished
  case h_4 here => exact .inl here
  case h_5 here => exact .inr here
  all_goals cases finished

/-- What closing a section does. -/
def closed (progress : Progress) (part : Section) (line : Nat) (inHeader : Bool) :
    Except LoadError Progress :=
  if inHeader then progress.closeHeader part.keyword line part.body
  else .ok { progress with place := .changes }

/-- A section that has been opened is closed by the first `$end`. -/
theorem leads_inside (words : List (List Char)) (progress final : Progress) (keyword : List Char)
    (line : Nat) (held : List (List Char)) (inHeader : Bool)
    (leads : Leads { progress with place := .inside keyword line held inHeader } words final)
    (ended : final.Over) :
    ∃ body rest next, words = body ++ Section.ending :: rest ∧ Section.ending ∉ body ∧
      progress.closed ⟨keyword, held.reverse ++ body⟩ line inHeader = .ok next ∧
      next.Leads rest final := by
  induction words generalizing held with
  | nil =>
      obtain rfl := leads
      rcases ended with here | here <;> cases here
  | cons word words ih =>
      obtain ⟨number, next, stepped, later⟩ := leads
      by_cases closes : word = Section.ending
      · refine ⟨[], words, next, by rw [closes]; rfl, List.not_mem_nil, ?_, later⟩
        rw [List.append_nil, closed, ← stepped, step]
        simp only [closes, Section.ending, ne_eq, not_true_eq_false, ↓reduceIte]
        -- Closing a section sets the place, whatever it was.
        rfl
      · have kept : next = { progress with place := .inside keyword line (word :: held) inHeader } := by
          simp only [step, ne_eq, show ¬ word = "$end".toList from closes, not_false_eq_true,
            ↓reduceIte, Except.ok.injEq] at stepped
          exact stepped.symm
        subst kept
        obtain ⟨body, rest, next, rfl, whole, closed, last⟩ := ih (word :: held) later
        refine ⟨word :: body, rest, next, rfl, ?_, ?_, last⟩
        · exact List.not_mem_cons_of_ne_of_not_mem (Ne.symm closes) whole
        · rw [← closed, List.reverse_cons, List.append_assoc, List.singleton_append]

/-- The loader behind a section of the definitions. -/
def behind (unit : Nat) (outer : List (List Char)) (declared : List Variable) (part : Section) :
    Progress :=
  defining (part.unit?.getD unit) (part.scopes outer)
    (declared ++ ((part.declares? outer).map Declaration.entry).toList)

/-- The loader among the changes, at a time. Scopes may have been left open. -/
def changing (unit : Nat) (outer : List (List Char)) (declared : List Variable) (now : Nat) :
    Progress :=
  { recording unit declared now with scopes := outer }

variable (unit : Nat) (outer : List (List Char)) (declared : List Variable)

theorem declare_defining (line : Nat) (body : List (List Char)) (next : Progress)
    (stated : (defining unit outer declared).declare line body = .ok next) :
    ∃ declaration, Section.declaration? outer body = some declaration ∧
      next = defining unit outer (declared ++ [declaration.entry]) := by
  rw [declare.eq_def] at stated
  split at stated
  next kind width identifier name more =>
      rw [Section.declaration?]
      cases read : Text.unsigned? 32 width with
      | none =>
          rw [read] at stated
          cases stated
      | some count =>
          rw [read] at stated
          cases stated
          exact ⟨_, rfl, rfl⟩
  next => cases stated

theorem declaration_scopes (body : List (List Char)) :
    (Section.declaration? outer body).isSome = (Section.declaration? [] body).isSome := by
  rw [Section.declaration?.eq_def, Section.declaration?.eq_def]
  split <;> simp

/-- A section that neither sets a unit nor declares a variable changes the scopes at most. -/
theorem behind_silent (keyword : List Char) (body : List (List Char))
    (shaped : Section.Shaped ⟨keyword, body⟩) (goesOn : keyword ≠ "$enddefinitions".toList)
    (scale : keyword ≠ "$timescale".toList) (var : keyword ≠ "$var".toList) :
    Section.Defines ⟨keyword, body⟩ ∧
      defining unit (Section.scopes ⟨keyword, body⟩ outer) declared =
        behind unit outer declared ⟨keyword, body⟩ := by
  refine ⟨⟨shaped, goesOn, fun other => absurd other scale, fun other => absurd other var⟩, ?_⟩
  rw [behind, Section.unit?, Section.declares?, if_neg scale, if_neg var]
  exact congrArg (defining unit _) (List.append_nil declared).symm

/-- A section that is closed among the definitions either ends them or goes into what the loader
knows. -/
theorem close_defining (part : Section) (line : Nat) (next : Progress) (shaped : part.Shaped)
    (closed : (defining unit outer declared).closeHeader part.keyword line part.body = .ok next) :
    part.keyword = "$enddefinitions".toList ∧ next = changing unit outer declared 0 ∨
      part.Defines ∧ next = behind unit outer declared part := by
  obtain ⟨keyword, body⟩ := part
  rw [closeHeader] at closed
  -- A keyword that has a meaning has no other.
  split at closed
  case isTrue scale =>
      obtain rfl : keyword = "$timescale".toList := scale
      have size : ∃ size, Section.scale? body = some size ∧ next = defining size outer declared := by
        rw [Section.scale?]
        split at closed
        next empty =>
            cases closed
            exact ⟨1, if_pos (List.isEmpty_iff.mp empty), rfl⟩
        next full =>
            rw [if_neg (mt List.isEmpty_iff.mpr full)]
            split at closed
            next size read =>
                cases closed
                exact ⟨size, by rw [read]; rfl, rfl⟩
            next => cases closed
      obtain ⟨size, read, rfl⟩ := size
      have defines : (Section.mk "$timescale".toList body).Defines :=
        ⟨shaped, (by decide : "$timescale".toList ≠ _), fun _ => by rw [read]; rfl,
          fun other => absurd other (by decide : "$timescale".toList ≠ _)⟩
      refine .inr ⟨defines, ?_⟩
      rw [behind, show (Section.mk "$timescale".toList body).unit? = some size from read]
      exact congrArg (defining size outer) (List.append_nil declared).symm
  case isFalse scale =>
  split at closed
  case isTrue scope =>
      obtain rfl : keyword = "$scope".toList := scope
      cases closed
      exact .inr (behind_silent unit outer declared _ _ shaped (by decide) (by decide) (by decide))
  case isFalse scope =>
  split at closed
  case isTrue upscope =>
      obtain rfl : keyword = "$upscope".toList := upscope
      cases closed
      exact .inr (behind_silent unit outer declared _ _ shaped (by decide) (by decide) (by decide))
  case isFalse upscope =>
  split at closed
  case isTrue var =>
      obtain rfl : keyword = "$var".toList := var
      obtain ⟨declaration, read, rfl⟩ := declare_defining unit outer declared line body next closed
      have defines : (Section.mk "$var".toList body).Defines :=
        ⟨shaped, (by decide : "$var".toList ≠ _),
          fun other => absurd other (by decide : "$var".toList ≠ _),
          fun _ => by rw [← declaration_scopes outer, read]; rfl⟩
      refine .inr ⟨defines, ?_⟩
      rw [behind, show (Section.mk "$var".toList body).declares? outer = some declaration from read]
      rfl
  case isFalse var =>
  split at closed
  case isTrue ends =>
      cases closed
      exact .inl ⟨ends, rfl⟩
  case isFalse ends =>
      cases closed
      have scopes : Section.scopes ⟨keyword, body⟩ outer = outer := by
        rw [Section.scopes, if_neg scope, if_neg upscope]
      obtain ⟨defines, same⟩ := behind_silent unit outer declared _ _ shaped ends scale var
      rw [scopes] at same
      exact .inr ⟨defines, same⟩

/-- The definitions of a dump, as the loader takes them. -/
theorem leads_defining (unit : Nat) (outer : List (List Char)) (declared : List Variable)
    (words : List (List Char)) (final : Progress)
    (leads : (defining unit outer declared).Leads words final) (ended : final.Over) :
    ∃ parts closing rest left, words = parts.flatMap Section.words ++
        (Section.words ⟨"$enddefinitions".toList, closing⟩ ++ rest) ∧
      (∀ part ∈ parts, part.Defines) ∧ Section.ending ∉ closing ∧
      (changing (Section.unit unit parts) left
        (declared ++ (Section.declarations outer parts).map Declaration.entry) 0).Leads rest final := by
  cases words with
  | nil =>
      obtain rfl := leads
      rcases ended with here | here <;> cases here
  | cons word words =>
      obtain ⟨line, opened, stepped, later⟩ := leads
      obtain ⟨name, rfl, rfl⟩ : ∃ name, word = '$' :: name ∧ opened =
          { defining unit outer declared with place := .inside word line [] true } := by
        rw [step.eq_def] at stepped
        dsimp only [defining] at stepped
        split at stepped
        next name =>
            cases stepped
            exact ⟨name, rfl, rfl⟩
        next => cases stepped
      obtain ⟨body, rest, next, rfl, whole, closed, goes⟩ :=
        leads_inside words (defining unit outer declared) final _ line [] true later ended
      have shaped : (Section.mk ('$' :: name) body).Shaped := ⟨rfl, whole⟩
      rcases close_defining unit outer declared ⟨'$' :: name, body⟩ line next shaped closed with
        ⟨ends, rfl⟩ | ⟨defines, rfl⟩
      · refine ⟨[], body, rest, outer, ?_, List.forall_mem_nil _, whole, ?_⟩
        · rw [← ends]
          simp [Section.words]
        · rw [Section.declarations, List.map_nil, List.append_nil]
          exact goes
      · -- The definitions go on behind this section.
        have shorter : rest.length < (('$' :: name) :: (body ++ Section.ending :: rest)).length := by
          simp only [List.length_cons, List.length_append]
          omega
        obtain ⟨parts, closing, rest, left, same, others, whole', goes⟩ :=
          leads_defining _ _ _ rest final goes ended
        refine ⟨⟨'$' :: name, body⟩ :: parts, closing, rest, left, ?_, ?_, whole', ?_⟩
        · rw [same]
          simp [Section.words]
        · exact List.forall_mem_cons.mpr ⟨defines, others⟩
        · rw [Section.unit_cons, Section.declarations, List.map_append, ← List.append_assoc]
          cases declares : (Section.mk ('$' :: name) body).declares? outer <;>
            simpa [declares] using goes
termination_by words.length

/-- One word among the changes, by what it is. -/
inductive Hears (now : Nat) (line : Nat) : List Char → Progress → Prop where
  | around (word : List Char) (listed : word ∈ Item.aroundBlocks.map String.toList) :
      Hears now line word (changing unit outer declared now)
  | aside (name : List Char) (unlisted : '$' :: name ∉ Item.aroundBlocks.map String.toList) :
      Hears now line ('$' :: name)
        { changing unit outer declared now with place := .inside ('$' :: name) line [] false }
  | stamp (digits : List Char) (count : Nat) (read : Text.unsigned? 64 digits = some count)
      (fits : count * unit < wordLimit) (order : now ≤ count * unit) :
      Hears now line ('#' :: digits) (changing unit outer declared (count * unit))
  | vector (mark : Char) (levels : List Char) (marked : mark = 'b' ∨ mark = 'B') :
      Hears now line (mark :: levels)
        { changing unit outer declared now with place := .vector (mark :: levels) line }
  | real (mark : Char) (value : List Char) (marked : mark = 'r' ∨ mark = 'R') :
      Hears now line (mark :: value) { changing unit outer declared now with place := .real }
  | scalar (level : Char) (identifier : List Char)
      (unmarked : level ∉ ['$', '#', 'b', 'B', 'r', 'R']) (named : identifier ≠ [])
      (readable : (∃ entry ∈ declared, entry.identifier = identifier) →
        (Change.mk now identifier [level]).Readable) :
      Hears now line (level :: identifier)
        (changing unit outer (declared.map fun entry => entry.note ⟨now, identifier, [level]⟩) now)

theorem change_hears (now line : Nat) (word : List Char) (next : Progress) (nonempty : word ≠ [])
    (changed : (changing unit outer declared now).change line word = .ok next) :
    Hears unit outer declared now line word next := by
  have around : loneKeywords = Item.aroundBlocks.map String.toList := rfl
  rw [change.eq_def, around] at changed
  split at changed
  case h_1 name =>
      split at changed
      next listed =>
          cases changed
          exact .around _ (List.contains_iff_mem.mp listed)
      next unlisted =>
          cases changed
          exact .aside name (mt List.contains_iff_mem.mpr unlisted)
  case h_2 digits =>
      obtain ⟨count, read, fits, order, rfl⟩ := (advance_ok_iff _ _ _ _).mp changed
      exact .stamp digits count read fits order
  case h_3 levels =>
      cases changed
      exact .vector 'b' levels (.inl rfl)
  case h_4 levels =>
      cases changed
      exact .vector 'B' levels (.inr rfl)
  case h_5 value =>
      cases changed
      exact .real 'r' value (.inl rfl)
  case h_6 value =>
      cases changed
      exact .real 'R' value (.inr rfl)
  case h_7 => cases changed
  case h_8 level identifier _ _ _ _ _ _ _ =>
      obtain ⟨readable, rfl⟩ := (record_ok_iff _ _ _ _ _).mp changed
      refine .scalar level identifier ?_ ?_ readable
      · simp_all
      · rintro rfl
        simp_all
  case h_9 => exact absurd rfl nonempty

/-- The words behind the definitions divide into items, from a time on, and what they say of the
variables is recorded. -/
structure Records (now : Nat) (words : List (List Char)) (waveform : Waveform)
    (items : List Item) (broken : Option (List Char)) : Prop where
  words : words = items.flatMap Item.words ++ broken.toList
  shaped : ∀ item ∈ items, item.Shaped
  real : ∀ word ∈ broken, word.head? = some 'r' ∨ word.head? = some 'R'
  counted : ∀ item ∈ items, item.Counted unit
  ordered : (now :: items.filterMap (Item.time? unit)).Pairwise (· ≤ ·)
  readable : ∀ change ∈ Item.changesFrom unit now items,
    (∃ entry ∈ declared, entry.identifier = change.identifier) → change.Readable
  waveform : waveform = {
    fsPerUnit := unit
    signals := (declared.map (Variable.after (Item.changesFrom unit now items))).map fun entry =>
      ⟨entry.name, entry.width, entry.newest.reverse⟩
    endTime := Item.endFrom unit now items }

variable {unit declared} {now : Nat} {words : List (List Char)} {waveform : Waveform}
  {items : List Item} {broken : Option (List Char)}

theorem Records.nil (broken : Option (List Char)) (final : Progress)
    (finished : final.finish = .ok waveform)
    (same : final = { changing unit outer declared now with place := final.place })
    (real : ∀ word ∈ broken, word.head? = some 'r' ∨ word.head? = some 'R') :
    Records unit declared now broken.toList waveform [] broken where
  words := rfl
  shaped := List.forall_mem_nil _
  real := real
  counted := List.forall_mem_nil _
  ordered := List.pairwise_singleton _ _
  readable := List.forall_mem_nil _
  waveform := by
    rw [finish_ok final waveform finished, same]
    simp [changing, recording, Item.changesFrom, Item.endFrom, Variable.after_nil]

/-- An item that is passed over says nothing of the variables. -/
theorem Records.passing (rest : Records unit declared now words waveform items broken) (item : Item)
    (shaped : item.Shaped) (timeless : item.time? unit = none) (counted : item.Counted unit)
    (silent : Item.changesFrom unit now (item :: items) = Item.changesFrom unit now items) :
    Records unit declared now (item.words ++ words) waveform (item :: items) broken where
  words := by rw [rest.words, List.flatMap_cons, List.append_assoc]
  shaped := List.forall_mem_cons.mpr ⟨shaped, rest.shaped⟩
  real := rest.real
  counted := List.forall_mem_cons.mpr ⟨counted, rest.counted⟩
  ordered := by
    rw [List.filterMap_cons_none timeless]
    exact rest.ordered
  readable := by
    rw [silent]
    exact rest.readable
  waveform := by
    rw [silent, Item.endFrom, List.filterMap_cons_none timeless]
    exact rest.waveform

/-- A change goes to the variables in front of what follows it. -/
theorem Records.change (item : Item) (identifier levels : List Char)
    (rest : Records unit (declared.map fun entry => entry.note ⟨now, identifier, levels⟩) now words
      waveform items broken)
    (shaped : item.Shaped) (timeless : item.time? unit = none) (counted : item.Counted unit)
    (readable : (∃ entry ∈ declared, entry.identifier = identifier) →
      (Change.mk now identifier levels).Readable)
    (writes : Item.changesFrom unit now (item :: items) =
      ⟨now, identifier, levels⟩ :: Item.changesFrom unit now items) :
    Records unit declared now (item.words ++ words) waveform (item :: items) broken where
  words := by rw [rest.words, List.flatMap_cons, List.append_assoc]
  shaped := List.forall_mem_cons.mpr ⟨shaped, rest.shaped⟩
  real := rest.real
  counted := List.forall_mem_cons.mpr ⟨counted, rest.counted⟩
  ordered := by
    rw [List.filterMap_cons_none timeless]
    exact rest.ordered
  readable := by
    rw [writes]
    refine List.forall_mem_cons.mpr ⟨readable, ?_⟩
    rintro later member ⟨entry, known, same⟩
    refine rest.readable later member ⟨_, List.mem_map_of_mem known, ?_⟩
    rw [← same, Variable.note]
    split <;> rfl
  waveform := by
    have noted : (declared.map fun entry => entry.note ⟨now, identifier, levels⟩).map
        (Variable.after (Item.changesFrom unit now items)) =
          declared.map (Variable.after (⟨now, identifier, levels⟩ :: Item.changesFrom unit now items)) := by
      rw [List.map_map]
      exact List.map_congr_left fun entry _ => entry.note_after _ _
    rw [writes, ← noted, Item.endFrom, List.filterMap_cons_none timeless]
    exact rest.waveform

/-- Time moves on at a timestamp. -/
theorem Records.stamp (digits : List Char) (count : Nat)
    (rest : Records unit declared (count * unit) words waveform items broken)
    (read : Text.unsigned? 64 digits = some count) (fits : count * unit < wordLimit)
    (order : now ≤ count * unit) :
    Records unit declared now (Item.words (.stamp digits) ++ words) waveform
      (.stamp digits :: items) broken := by
  have time : (Item.stamp digits).time? unit = some (count * unit) := by rw [Item.time?, read]; rfl
  have changes : Item.changesFrom unit now (.stamp digits :: items) =
      Item.changesFrom unit (count * unit) items := by
    rw [Item.changesFrom, time, Option.getD_some]
  have ended : Item.endFrom unit now (.stamp digits :: items) =
      Item.endFrom unit (count * unit) items := by
    rw [Item.endFrom, List.filterMap_cons_some time, List.getLast?_cons]
    rfl
  constructor
  case words => rw [rest.words, List.flatMap_cons, List.append_assoc]
  case shaped => exact List.forall_mem_cons.mpr ⟨trivial, rest.shaped⟩
  case real => exact rest.real
  case counted => exact List.forall_mem_cons.mpr ⟨fun _ _ => ⟨_, time, fits⟩, rest.counted⟩
  case ordered =>
    rw [List.filterMap_cons_some time]
    refine List.pairwise_cons.mpr ⟨?_, rest.ordered⟩
    intro later member
    rcases List.mem_cons.mp member with rfl | member
    · exact order
    · exact Nat.le_trans order ((List.pairwise_cons.mp rest.ordered).1 later member)
  case readable =>
    rw [changes]
    exact rest.readable
  case waveform =>
    rw [changes, ended]
    exact rest.waveform

/-- What follows the definitions of a dump, as the loader takes it. -/
theorem leads_changing (unit : Nat) (outer : List (List Char)) (declared : List Variable)
    (now : Nat) (words : List (List Char)) (final : Progress) (waveform : Waveform)
    (leads : (changing unit outer declared now).Leads words final)
    (finished : final.finish = .ok waveform) (nonempty : ∀ word ∈ words, word ≠ []) :
    ∃ items broken, Records unit declared now words waveform items broken := by
  have ended := over_of_finish final waveform finished
  cases words with
  | nil =>
      obtain rfl := leads
      exact ⟨[], none, Records.nil outer none _ finished rfl (by simp)⟩
  | cons word words =>
      obtain ⟨line, next, stepped, later⟩ := leads
      obtain ⟨here, others⟩ := List.forall_mem_cons.mp nonempty
      have hears : Hears unit outer declared now line word next :=
        change_hears unit outer declared now line word next here stepped
      cases hears with
      | around word listed =>
          obtain ⟨items, broken, rest⟩ := leads_changing _ _ _ _ words final waveform later finished
            others
          exact ⟨_, broken, rest.passing (.around word) listed rfl (by rintro _ ⟨⟩) rfl⟩
      | aside name unlisted =>
          obtain ⟨body, rest, next, rfl, whole, closed, goes⟩ :=
            leads_inside words (changing unit outer declared now) final _ line [] false later ended
          cases closed
          have shorter : rest.length < (('$' :: name) :: (body ++ Section.ending :: rest)).length := by
            simp only [List.length_cons, List.length_append]
            omega
          obtain ⟨items, broken, rest⟩ := leads_changing unit outer declared now rest final waveform
            goes finished fun word member =>
              others word (List.mem_append_right _ (List.mem_cons_of_mem _ member))
          have passed := rest.passing (.aside ⟨'$' :: name, body⟩) ⟨⟨rfl, whole⟩, unlisted⟩ rfl
            (by rintro _ ⟨⟩) rfl
          refine ⟨.aside ⟨'$' :: name, body⟩ :: items, broken, ?_⟩
          simpa [Item.words, Section.words] using passed
      | stamp digits count read fits order =>
          obtain ⟨items, broken, rest⟩ := leads_changing _ _ _ _ words final waveform later finished
            others
          exact ⟨_, broken, rest.stamp digits count read fits order⟩
      | vector mark levels marked =>
          cases words with
          | nil =>
              obtain rfl := later
              rcases ended with here | here <;> cases here
          | cons identifier words =>
              obtain ⟨number, next, stepped, later⟩ := later
              obtain ⟨readable, rfl⟩ := (record_ok_iff _ _ _ _ _).mp stepped
              obtain ⟨items, broken, rest⟩ := leads_changing _ _ _ _ words final waveform later
                finished (List.forall_mem_cons.mp others).2
              exact ⟨_, broken, .change (.vector mark levels identifier) identifier levels rest marked
                rfl (by rintro _ ⟨⟩) readable rfl⟩
      | real mark value marked =>
          cases words with
          | nil =>
              obtain rfl := later
              exact ⟨[], some (mark :: value),
                Records.nil outer (some (mark :: value)) _ finished rfl (by simpa using marked)⟩
          | cons identifier words =>
              obtain ⟨number, next, stepped, later⟩ := later
              cases stepped
              obtain ⟨items, broken, rest⟩ := leads_changing _ _ _ _ words final waveform later
                finished (List.forall_mem_cons.mp others).2
              exact ⟨_, broken,
                rest.passing (.real mark value identifier) marked rfl (by rintro _ ⟨⟩) rfl⟩
      | scalar level identifier unmarked named readable =>
          obtain ⟨items, broken, rest⟩ := leads_changing _ _ _ _ words final waveform later finished
            others
          exact ⟨_, broken, .change (.scalar level identifier) identifier [level] rest
            ⟨unmarked, named⟩ rfl (by rintro _ ⟨⟩) readable rfl⟩
termination_by words.length

end Progress

end CoreBench.Waveform
