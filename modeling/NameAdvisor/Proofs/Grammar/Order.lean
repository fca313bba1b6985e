import NameAdvisor.Grammar.Program
import NameAdvisor.Proofs.Grammar.Rule

/-!
# The order of a tree that was read from a source

Every rule of the grammar reads its nodes in their order, and the rules that contain each other do so for every depth of
nesting.  So the parts of the tree of a source stand in order, however broken the source is.

## Main results

* `Grammar.orderly_goal`: the constructs that contain each other are read in their order.
* `Tree.ofSource_inOrder`: the tree of a source is in order.
-/

namespace NameAdvisor

namespace Grammar

open Rule

variable {n b : Nat}

/-! ## Types -/

instance {hole : Rule} [Orderly n b hole] : Orderly n b (template hole) := by
  dsimp only [template]
  infer_instance

section

variable (self : Goal → Rule) [∀ b g, Orderly n b (self g)]

instance : Orderly n b (typeArguments self) := by
  unfold typeArguments
  infer_instance

instance : Orderly n b (typeParameter self) := by
  dsimp only [typeParameter]
  infer_instance

instance : Orderly n b (typeParameters self) := by
  unfold typeParameters
  infer_instance

instance : Orderly n b (colonType self) := by
  unfold colonType
  infer_instance

instance : Orderly n b (typeItem self) := by
  unfold typeItem
  infer_instance

instance : Orderly n b (typeParentheses self) := by
  unfold typeParentheses
  infer_instance

instance : Orderly n b (memberBrackets self) := by
  dsimp only [memberBrackets]
  infer_instance

instance : Orderly n b (typeMember self) := by
  dsimp only [typeMember]
  infer_instance

instance : Orderly n b (objectType self) := by
  unfold objectType
  infer_instance

instance : Orderly n b (typeReference self) := by
  unfold typeReference
  infer_instance

instance : Orderly n b typeOperator := by
  unfold typeOperator
  infer_instance

instance : Orderly n b (typePrimary self) where
  fine h := by
    unfold typePrimary
    split
    all_goals first
      | exact fine_none
      | exact fine_of _ h

instance : Orderly n b (typeSuffix self) := by
  unfold typeSuffix
  infer_instance

instance : Orderly n b (typeOperand self) where
  fine h := by
    unfold typeOperand
    split
    · exact fine_of _ h
    · exact fine_of _ h

instance : Orderly n b (type self) := by
  dsimp only [type]
  infer_instance

/-! ## Functions, object literals and classes -/

instance : Orderly n b (item self) := by
  unfold item
  infer_instance

instance : Orderly n b (spreadItem self) := by
  unfold spreadItem
  infer_instance

instance : Orderly n b (condition self) := by
  unfold condition
  infer_instance

instance : Orderly n b (arguments self) := by
  unfold arguments
  infer_instance

instance : Orderly n b (decorator self) := by
  dsimp only [decorator]
  exact .node (by decide)

instance : Orderly n b parameterModifier := by
  unfold parameterModifier
  infer_instance

instance : Orderly n b (parameter self) := by
  unfold parameter
  infer_instance

instance : Orderly n b (parameters self) := by
  unfold parameters
  infer_instance

instance : Orderly n b (signature self) := by
  unfold signature
  infer_instance

variable {inAllowed inBranch : Bool}

instance : Orderly n b (arrowBody self inAllowed inBranch) := by
  unfold arrowBody
  infer_instance

instance : Orderly n b (parenthesised self inAllowed inBranch) where
  fine h := by
    unfold parenthesised
    split
    · exact fine_none
    · next ts r hts =>
      obtain ⟨hfits, hr⟩ := fine_of _ h ts r hts
      split
      · exact fine_node (by decide) (fine_andThen (fine_some hfits hr))
      · extract_lets group
        have hgroup : Fine n b _ group := fine_some (hfits.wrap (by decide)) hr
        split
        · split
          · exact hgroup
          · next us r' hus =>
            obtain ⟨hfits', hr'⟩ := fine_of _ hr us r' hus
            split
            · exact fine_some ((hfits.append hfits').wrap (by decide)) hr'
            · exact hgroup
        · exact hgroup

instance : Orderly n b (propertyKey self) where
  fine h := by
    dsimp only [propertyKey]
    split
    all_goals first
      | exact fine_none
      | exact fine_of _ h

instance {ws : List String} : Orderly n b (memberModifier ws) := by
  unfold memberModifier
  infer_instance

instance : Orderly n b (objectMember self) where
  fine h := by
    unfold objectMember
    split
    · exact fine_of _ h
    · extract_lets head
      split
      · exact fine_none
      · next ts r hts =>
        obtain ⟨hfits, hr⟩ := fine_of _ h ts r hts
        have hbefore := fine_some hfits hr
        extract_lets before
        split
        · exact fine_node (by decide) (fine_all hbefore)
        split
        · exact fine_node (by decide) (fine_all hbefore)
        · exact fine_node (by decide) hbefore

instance : Orderly n b (objectLiteral self) := by
  unfold objectLiteral
  exact .node (by decide)

instance : Orderly n b (arrayLiteral self) := by
  unfold arrayLiteral
  infer_instance

instance : Orderly n b (classMember self) where
  fine h := by
    unfold classMember
    split
    · exact fine_of _ h
    · extract_lets head
      split
      · exact fine_none
      · next ts r hts =>
        obtain ⟨hfits, hr⟩ := fine_of _ h ts r hts
        have hbefore := fine_some hfits hr
        extract_lets before
        split
        · split
          · exact fine_none
          · next us r' hus =>
            obtain ⟨hfits', hr'⟩ := fine_all hbefore us r' hus
            have hbefore' := fine_some hfits' hr'
            extract_lets before'
            split
            · exact fine_node (by decide) (fine_all hbefore')
            · exact fine_node (by decide) hbefore'
        · exact fine_node (by decide) (fine_all hbefore)

instance : Orderly n b (classBody self) := by
  dsimp only [classBody]
  exact .node (by decide)

instance : Orderly n b (heritage self) where
  fine h := by
    unfold heritage
    split
    · exact fine_of _ h
    split
    · exact fine_of _ h
    · exact fine_none

instance : Orderly n b (classForm self) := by
  dsimp only [classForm]
  infer_instance

instance : Orderly n b (functionExpression self) := by
  unfold functionExpression
  infer_instance

/-! ## Elements -/

instance : Orderly n b patternLiteral where
  fine {r} h := by
    unfold patternLiteral
    split
    · exact fine_none
    · next m hm =>
      have hlength := patternSize?_le hm
      rw [List.length_drop] at hlength
      have hne : 0 < r.text.length := by
        refine List.length_pos_iff.mpr fun hnil => ?_
        simp [hnil, patternSize?] at hm
      exact fine_firstOf h (h.start_add_le (by omega))

instance : Orderly n b elementName where
  fine {r} h := by
    unfold elementName
    split
    · exact fine_firstOf h (h.start_add_le (runSize_le _ r.text))
    · exact fine_none

/-- A quoted text that is not closed is read as if it were: one character beyond the source. -/
instance [hb : Fact (n < b)] : Orderly n b elementText where
  fine {r} h := by
    unfold elementText
    split
    · next q s htoken htext =>
      have hrun := runSize_le (· != q) s
      have hto := h.text_le (by simp [htext])
      have := hb.out
      rw [htext, List.length_cons] at hto
      exact fine_firstOf h (by omega)
    · exact fine_none

instance : Orderly n b (elementHole self) := by
  unfold elementHole
  infer_instance

instance [Fact (n < b)] : Orderly n b (elementAttribute self) := by
  dsimp only [elementAttribute]
  infer_instance

instance [Fact (n < b)] : Closing n b (element self) := by
  dsimp only [element]
  infer_instance

/-- An element ends with an angle bracket, so inside the source whatever its quoted texts do. -/
instance : Orderly n b (element self) where
  fine {r} h := by
    have : Fact (n < max b (n + 1)) := ⟨by omega⟩
    have hwide : Orderly n (max b (n + 1)) (element self) := by
      dsimp only [element]
      infer_instance
    have hr : r.Stands n (max b (n + 1)) :=
      h.withBound (h.start_le.trans (Nat.le_max_left ..)) (h.le.trans (Nat.le_max_left ..))
    intro ts r' hts
    obtain ⟨hfits, hr'⟩ := fine_of (element self) hr ts r' hts
    exact ⟨hfits, hr'.withBound ((Closing.start_le hr hts).trans h.le) h.le⟩

/-! ## Expressions -/

instance : Orderly n b (callTypeArguments self) where
  fine h := by
    unfold callTypeArguments
    split
    · exact fine_none
    · next ts r hts =>
      obtain ⟨hfits, hr⟩ := fine_of _ h ts r hts
      split
      · exact fine_some hfits hr
      · exact fine_none

instance : Orderly n b (suffix self) where
  fine h := by
    unfold suffix
    split
    all_goals first
      | exact fine_none
      | exact fine_of _ h
      | skip
    all_goals
      split
      · exact fine_none
      · exact fine_of _ h

instance {p : Rule} [Orderly n b p] : Orderly n b (suffixed self p) where
  fine h := by
    unfold suffixed
    split
    · exact fine_none
    · next ts r hts =>
      obtain ⟨hfits, hr⟩ := fine_of _ h ts r hts
      split
      · exact fine_some hfits hr
      · exact fine_andThen (fine_some hfits hr)

instance : Orderly n b (wordOperand self inAllowed inBranch) where
  fine {r} h := by
    have hname : Fine n b r.last (name r) := fine_of name h
    unfold wordOperand
    extract_lets after arrow
    split
    · exact fine_node (by decide) (fine_of arrow h)
    split
    · split
      · exact fine_node (by decide) (fine_of (all [word "async", arrow]) h)
      split
      · split
        · exact fine_none
        · next ts r' hts =>
          obtain ⟨hfits, hr'⟩ := fine_of _ h ts r' hts
          exact fine_some (hfits.wrap (by split <;> decide)) hr'
      · split
        · next ts r' hts =>
          obtain ⟨hfits, hr'⟩ := fine_of _ h ts r' hts
          split
          · exact fine_some (hfits.wrap (by decide)) hr'
          · exact hname
        · exact hname
    · exact hname

instance : Orderly n b (angleOperand self inAllowed inBranch) where
  fine {r} h := by
    unfold angleOperand
    extract_lets assertion elements second third generic other
    have hother : Fine n b r.last (other r) := by
      simp only [other]
      split
      · exact fine_of (self .element) h
      · exact fine_of (node .construct assertion) h
    split
    · split
      · next ts r' hts =>
        obtain ⟨hfits, hr'⟩ := fine_of _ h ts r' hts
        split
        · exact fine_some (hfits.wrap (by decide)) hr'
        split
        · exact hother
        · exact fine_node (by decide) (fine_andThen (fine_some hfits hr'))
      · exact hother
    · exact hother

instance : Orderly n b (primary self inAllowed inBranch) where
  fine h := by
    unfold primary
    split
    all_goals first
      | exact fine_none
      | exact fine_of _ h
      | skip
    split
    · exact fine_none
    split
    · exact fine_of _ h
    · exact fine_of _ h

instance : Orderly n b (operand self inAllowed inBranch) where
  fine h := by
    unfold operand
    split
    · exact fine_of _ h
    split
    · exact fine_of _ h
    · exact fine_of _ h

instance : Orderly n b (operation self inAllowed inBranch) where
  fine h := by
    unfold operation
    split
    all_goals
      repeat' split
    all_goals first
      | exact fine_none
      | exact fine_of _ h

instance : Orderly n b (yielded self inAllowed inBranch) := by
  unfold yielded
  infer_instance

instance : Orderly n b (assignment self inAllowed inBranch) where
  fine {r} h := by
    unfold assignment
    extract_lets first
    have hfirst : Orderly n b first := by
      simp only [first]
      split <;> infer_instance
    split
    · exact fine_none
    · next ts r' hts =>
      obtain ⟨hfits, hr'⟩ := fine_of first h ts r' hts
      split
      · exact fine_some hfits hr'
      split
      · exact fine_none
      · next hnil =>
        obtain ⟨hnone, hr''⟩ := fine_of _ hr' _ _ hnil
        exact fine_some (hfits.mono (Nat.le_refl _) hnone.le) hr''
      · next us r'' _ hus =>
        obtain ⟨hfits', hr''⟩ := fine_of _ hr' _ _ hus
        exact fine_some ((hfits.append hfits').wrap (by decide)) hr''

instance : Orderly n b (expression self inAllowed) := by
  dsimp only [expression]
  infer_instance

/-! ## Statements -/

instance : Orderly n b (statements self) := by
  unfold statements
  infer_instance

instance : Orderly n b (block self) := by
  unfold block
  infer_instance

instance : Orderly n b (expressionStatement self) := by
  unfold expressionStatement
  infer_instance

instance : Orderly n b (binding self) where
  fine h := by
    unfold binding
    split
    all_goals first
      | exact fine_none
      | exact fine_of _ h

instance : Orderly n b (declarator self inAllowed) := by
  unfold declarator
  exact .node (by decide)

instance : Orderly n b (variableDeclaration self inAllowed) := by
  unfold variableDeclaration
  infer_instance

instance : Orderly n b (functionDeclaration self) where
  fine h := by
    unfold functionDeclaration
    split
    · exact fine_none
    · next ts r hts =>
      obtain ⟨hfits, hr⟩ := fine_of _ h ts r hts
      extract_lets kind
      have hkind : kind ≠ .comment := by
        simp only [kind]
        split <;> decide
      split
      · exact fine_none
      · next us r' hus =>
        obtain ⟨hfits', hr'⟩ := fine_of _ hr us r' hus
        have hbefore := fine_some (hfits.append hfits') hr'
        extract_lets before
        split
        · exact fine_node hkind (fine_all hbefore)
        · exact fine_node (by decide) (fine_all hbefore)

instance : Orderly n b (classDeclaration self) where
  fine h := by
    unfold classDeclaration
    split
    · exact fine_none
    · next ts r hts =>
      obtain ⟨hfits, hr⟩ := fine_of _ h ts r hts
      have hbefore := fine_some hfits hr
      extract_lets before
      split
      · exact fine_node (by decide) (fine_all hbefore)
      · exact fine_node (by decide) (fine_all hbefore)

instance : Orderly n b (enumMember self) := by
  unfold enumMember
  infer_instance

instance : Orderly n b (enumDeclaration self) := by
  unfold enumDeclaration
  infer_instance

instance : Orderly n b (interfaceDeclaration self) := by
  unfold interfaceDeclaration
  infer_instance

instance : Orderly n b (typeAlias self) := by
  unfold typeAlias
  infer_instance

instance : Orderly n b (namespaceDeclaration self) := by
  dsimp only [namespaceDeclaration]
  infer_instance

instance : Orderly n b (ambientDeclaration self) := by
  unfold ambientDeclaration
  infer_instance

instance : Orderly n b (importAttributes self) := by
  unfold importAttributes
  infer_instance

instance : Orderly n b nameList := by
  unfold nameList
  infer_instance

instance : Orderly n b (importDeclaration self) := by
  dsimp only [importDeclaration]
  infer_instance

instance : Orderly n b (exportSource self) := by
  unfold exportSource
  infer_instance

instance : Orderly n b (defaultExport self) where
  fine h := by
    unfold defaultExport
    repeat' split
    all_goals exact fine_of _ h

instance : Orderly n b (exported self) where
  fine h := by
    unfold exported
    repeat' split
    all_goals exact fine_of _ h

instance : Orderly n b (exportStatement self) := by
  unfold exportStatement
  exact .node (by decide)

instance : Orderly n b (loopOver self) := by
  dsimp only [loopOver]
  infer_instance

instance : Orderly n b (loopSteps self) := by
  dsimp only [loopSteps]
  infer_instance

instance : Orderly n b (switchCase self) := by
  dsimp only [switchCase]
  infer_instance

instance : Orderly n b (sameLineExpression self) := by
  unfold sameLineExpression
  infer_instance

instance {w : String} : Orderly n b (keywordStatement self w) := by
  dsimp only [keywordStatement]
  split <;> infer_instance

instance {w : String} : Orderly n b (wordStatement self w) where
  fine h := by
    dsimp only [wordStatement]
    split
    all_goals
      repeat' split
    all_goals first
      | exact fine_none
      | exact fine_of _ h

instance : Orderly n b (labelled self) := by
  unfold labelled
  infer_instance

instance : Orderly n b (statement self) where
  fine h := by
    unfold statement
    split
    all_goals first
      | exact fine_none
      | exact fine_of _ h

/-! ## Whole sources -/

instance {g : Goal} : Orderly n b (rule self g) := by
  cases g <;> dsimp only [rule] <;> infer_instance

end

/-- However deep the constructs of a source are nested, they are read in their order. -/
theorem orderly_goal (depth : Nat) : ∀ b g, Orderly n b (goal depth g) := by
  induction depth with
  | zero => exact fun b g => inferInstanceAs (Orderly n b fail)
  | succ depth ih => exact fun b g => inferInstanceAs (Orderly n b (rule (goal depth) g))

instance : Orderly n b interpreterLine :=
  have : Orderly n b (raw (runSize (· != '\n'))) := .raw (runSize_le _)
  inferInstanceAs (Orderly n b (only _ (raw (runSize (· != '\n')))))

/-- All that is read of a source, the comments behind the last statement included, stands in the source. -/
theorem fits_program {self : Goal → Rule} [∀ b g, Orderly n b (self g)] {r : Reader} (h : r.Stands n n)
    {found : List Tree × Reader} (hfound : program self r = some found) : Tree.Fits r.last n found.1 := by
  unfold program all andThen at hfound
  split at hfound
  · cases hfound
  next ts r₁ hts =>
  obtain ⟨hfits, hr₁⟩ := fine_of _ h ts r₁ hts
  simp only [all, andThen] at hfound
  split at hfound
  · cases hfound
  next us r₂ hus =>
  split at hus
  · cases hus
  next vs r₃ hvs =>
  obtain ⟨hfits', hr₃⟩ := fine_of _ hr₁ vs r₃ hvs
  cases hus
  cases hfound
  exact hfits.append (hfits'.append (hr₃.comments.mono (Nat.le_refl _) hr₃.start_le))

end Grammar

/-- In the tree of a source, the parts of every construct stand one after the other and inside it, and no comment is
empty. -/
theorem Tree.ofSource_inOrder (language : SourceLanguage) (source : List Char) :
    (Tree.ofSource language source).isInOrder = true ∧ (Tree.ofSource language source).isFilled = true := by
  have hself := @Grammar.orderly_goal source.length (Grammar.depthLimit source.length)
  have hstart : (Reader.ofSource language source).Stands source.length source.length :=
    Reader.stands_moveTo _ (Nat.le_refl _) (Nat.zero_le _) fun _ => by omega
  have hfits : Tree.Fits 0 source.length (((Grammar.program (Grammar.goal (Grammar.depthLimit source.length))
      (Reader.ofSource language source)).map (·.1)).getD []) := by
    cases hfound : Grammar.program (Grammar.goal (Grammar.depthLimit source.length))
        (Reader.ofSource language source) with
    | none => exact .nil (Nat.zero_le _)
    | some found => exact Grammar.fits_program hstart hfound
  exact ⟨hfits.inOrder, isFilled_node.mpr ⟨nofun, hfits.filled⟩⟩

end NameAdvisor
