import RowMapper.Proofs.CompiledText

/-!
# The vocabulary of compiled expressions

A compiled expression is written with words of a fixed list, columns behind aliases of its scope
and placeholders of its parameters. What holds of every word of the list is a computation, so
that a property of texts which is none of the expression has no case for each of its shapes.

* `Scope.Owns` are the aliases of the tables of a scope.
* `Compiles.written` is the induction over derivations.
-/

namespace RowMapper

namespace Scope

/-- The alias is that of the root table or of a join. -/
def Owns (s : Scope) (a : String) : Prop :=
  a = s.tableAlias ∨ ∃ j ∈ s.joins, j.tableAlias = a

variable {s s' : Scope} {a : String}

/-- A well-formed scope owns what it knows. -/
theorem WellFormed.owns (h : s.WellFormed) (known : s.Knows a) : s.Owns a := by
  rcases known with hroot | hjoin | ⟨b, hb, rfl⟩
  · exact .inl hroot
  · exact .inr hjoin
  · exact .inl (h.bound b hb)

/-- What a well-formed scope owns is an alias. -/
theorem WellFormed.isAlias_of_owns (h : s.WellFormed) (owned : s.Owns a) : IsAlias a := by
  rcases owned with rfl | ⟨j, hj, rfl⟩
  · exact h.root
  · exact (h.joined j hj).1

/-- A scope that grows loses no alias. -/
theorem Owns.mono (owned : s.Owns a) (hext : Extends s s') : s'.Owns a := by
  rcases owned with rfl | ⟨j, hj, rfl⟩
  · exact .inl hext.tableAlias.symm
  · exact .inr ⟨j, hext.joins.subset hj, rfl⟩

end Scope

/-- The words that expressions are written with. -/
def Tokens.vocabulary : List String :=
  ["(", ")", ", ", "NULL", " IS NULL", " IS NOT NULL", " IN ", " = ", "1 = 0"]
    ++ BinaryOp.all.map BinaryOp.text ++ UnaryOp.all.map UnaryOp.text

/-- Operators are written with words that are known. -/
theorem BinaryOp.text_mem_vocabulary (op : BinaryOp) : op.text ∈ Tokens.vocabulary := by
  cases op <;> decide

theorem UnaryOp.text_mem_vocabulary (op : UnaryOp) : op.text ∈ Tokens.vocabulary := by
  cases op <;> decide

/-- The tokens of expressions that were compiled into the scope. -/
inductive Token.Written (env : Environment) (s : Scope) : Token → Prop where
  | word {w : String} (h : w ∈ Tokens.vocabulary) : Written env s (.word w)
  | column {a : String} (owned : s.Owns a) (column : String) : Written env s (env.column a column)
  | parameter {i : Nat} (bound : i < s.parameters.length) : Written env s (.parameter i)

/-- All of the tokens are such ones. -/
def Tokens.Written (env : Environment) (s : Scope) (ts : Tokens) : Prop :=
  ∀ t ∈ ts, t.Written env s

section

variable {env : Environment} {s s' : Scope} {ts us : Tokens}

/-! ## Pieces -/

theorem Token.Written.mono {t : Token} (h : t.Written env s) (hext : s.Extends s') :
    t.Written env s' := by
  cases h with
  | word h => exact .word h
  | column owned column => exact .column (owned.mono hext) column
  | parameter bound =>
    exact .parameter (Nat.lt_of_lt_of_le bound hext.parameters.length_le)

theorem Tokens.Written.mono (h : Tokens.Written env s ts) (hext : s.Extends s') :
    Tokens.Written env s' ts :=
  fun t ht => (h t ht).mono hext

theorem Tokens.written_nil : Tokens.Written env s [] := fun _ ht => absurd ht List.not_mem_nil

theorem Tokens.Written.append (h : Tokens.Written env s ts) (h' : Tokens.Written env s us) :
    Tokens.Written env s (ts ++ us) :=
  List.forall_mem_append.2 ⟨h, h'⟩

theorem Tokens.Written.cons {t : Token} (ht : t.Written env s) (h : Tokens.Written env s ts) :
    Tokens.Written env s (t :: ts) :=
  List.forall_mem_cons.2 ⟨ht, h⟩

theorem Token.Written.single {t : Token} (ht : t.Written env s) : Tokens.Written env s [t] :=
  Tokens.written_nil.cons ht

theorem Token.written_null : Token.null.Written env s := .word (by decide)

/-- Tests for NULL are written with words that are known. -/
theorem Token.written_nullTest (negated : Bool) : (nullTest negated).Written env s := by
  cases negated <;> exact .word (by decide)

theorem Tokens.Written.parenthesizedIf (h : Tokens.Written env s ts) (needed : Bool) :
    Tokens.Written env s (Tokens.parenthesizedIf needed ts) := by
  have hwords : ∀ w ∈ ["(", ")"], w ∈ vocabulary := by decide
  intro t ht
  rcases mem_of_mem_parenthesizedIf ht with ht | ⟨w, hw, rfl⟩
  · exact h t ht
  · exact .word (hwords w hw)

/-- The list of the parameters that come last. -/
theorem Tokens.written_parameterList (s : Scope) (vs : List Value) :
    Tokens.Written env (s.addParameters vs)
      (Tokens.parameterList s.parameters.length vs.length) := by
  have hwords : ∀ w ∈ ["(", ", ", ")"], w ∈ vocabulary := by decide
  intro t ht
  rcases mem_of_mem_parameterList ht with ⟨w, hw, rfl⟩ | ⟨i, hi, rfl⟩
  · exact .word (hwords w hw)
  · obtain ⟨j, hj, rfl⟩ := List.mem_range'.1 hi
    apply Token.Written.parameter
    rw [Scope.parameters_addParameters, List.length_append]
    omega

/-- The placeholder of a value that was added is within the parameters. -/
theorem Token.written_addParameter (s : Scope) (v : Value) :
    Token.Written env (s.addParameters [v]) (.parameter s.parameters.length) :=
  .parameter (by simp)

/-! ## Derivations -/

/-- What an expression compiles to is written with the words of the list, columns of the scope
and its parameters. -/
theorem Compiles.written {parent : Option Expr} {e : Expr} (h : Compiles env parent e s ts s')
    (wf : s.WellFormed) : Tokens.Written env s' ts := by
  -- what was written before is written in the later scope, for that extends the earlier one
  induction h with
  | lambda inner ih => exact ih ((Scope.Step.bind _ _).wellFormed wf)
  | nullTest tested inner ih =>
    exact ((ih wf).parenthesizedIf _).append (Token.written_nullTest _).single
  | @binary _ op _ _ _ _ _ _ _ untested first second ihl ihr =>
    have hleft := (ihl wf).mono second.steps.extends
    have hright := ihr (Scope.Steps.wellFormed first.steps wf)
    exact (hleft.parenthesizedIf _).append
      ((hright.parenthesizedIf _).cons (.word op.text_mem_vocabulary))
  | @unary _ op _ _ _ _ inner ih =>
    exact ((ih wf).parenthesizedIf _).cons (.word op.text_mem_vocabulary)
  | convert inner ih => exact ih wf
  | nothing empty => exact Token.Written.single (.word (by decide))
  | @membership _ _ _ _ _ _ vs list filled inner ih =>
    have hitem := (ih wf).mono (Scope.steps_addParameters _ vs).extends
    exact (hitem.parenthesizedIf _).append
      ((Tokens.written_parameterList _ _).cons (.word (by decide)))
  | emptyList => exact Token.written_null.single.parenthesizedIf true
  | list filled => exact Tokens.written_parameterList _ _
  | key given => exact (Token.written_addParameter _ _).single
  | null absent => exact Token.written_null.single
  | value present => exact (Token.written_addParameter _ _).single
  | row alias? mapping single =>
    exact Token.Written.single (.column (wf.owns (Scope.knows_rowAlias alias?)) _)
  | @condition _ _ _ _ _ s₁ admitted resolved =>
    obtain ⟨hsteps, hknown⟩ := resolved.steps
    have howned := ((Scope.Steps.wellFormed hsteps wf).owns hknown).mono
      (Scope.steps_addParameters _ [.of (.boolean true)]).extends
    have hvalue : Token.Written env _ _ := Token.written_addParameter s₁ (.of (.boolean true))
    exact (hvalue.single.cons (.word (by decide))).cons (.column howned _)
  | member plain resolved =>
    obtain ⟨hsteps, hknown⟩ := resolved.steps
    exact Token.Written.single (.column ((Scope.Steps.wellFormed hsteps wf).owns hknown) _)

end

end RowMapper
