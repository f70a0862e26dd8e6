import ScriptTree.Proofs.Construction.Replay
import ScriptTree.Proofs.Folding.Tree

/-!
# Trees are what their construction says

A session that does not fold adds nothing of its own to a tree but the line.  So replaying a tree
gives back that very tree: every tree can be built, and no constructor loses a part, exchanges two
parts, fills in a missing one or moves a line.
-/

namespace ScriptTree

namespace Translation

/-- The translation that changes nothing. -/
def identity : Translation where
  expression := id
  statement := id
  elsif := id
  block := id

private theorem map_map_id {α : Type} (list : Option (Chain α)) :
    list.map (Chain.map id) = list := by
  cases list with
  | none => rfl
  | some chain => exact congrArg some (Chain.map_eq_self fun a _ => rfl)

theorem product_identity (p : Product) : identity.product p = p := by
  cases p with
  | arguments list => exact congrArg Product.arguments (Chain.map_eq_self fun e _ => rfl)
  | statements list => exact congrArg Product.statements (Chain.map_eq_self fun s _ => rfl)
  | elsifs list => exact congrArg Product.elsifs (Chain.map_eq_self fun c _ => rfl)
  | _ => rfl

/-- Two sessions that do not fold build the same at the same line. -/
theorem identity_reaches : identity.Reaches false := by
  intro s hs
  have hstart : (Session.start ⟨false, s.line⟩).options.constantFolding = false := rfl
  constructor
  case binary =>
    intro op left right
    rw [Session.binary_of_not_folding hs, Session.binary_of_not_folding hstart]
    rfl
  case minus =>
    intro operand
    rw [Session.minus_of_not_folding hs, Session.minus_of_not_folding hstart]
    rfl
  case call =>
    intro name arguments
    exact congrArg (Expression.call s.line name) (map_map_id arguments)
  case ifElse =>
    intro condition thenBlock elsifs elseBlock
    change Statement.ifElse s.line condition thenBlock (elsifs.map (Chain.map id))
      (elseBlock.map id) = .ifElse s.line condition thenBlock elsifs elseBlock
    rw [map_map_id, Option.map_id_fun, id]
  case forLoop =>
    intro init condition post block
    change Statement.forLoop s.line (init.map id) (condition.map id) (post.map id) block =
      .forLoop s.line init condition post block
    rw [Option.map_id_fun, id, id, id]
  case returnWith =>
    intro value
    change Statement.returnWith s.line (value.map id) = .returnWith s.line value
    rw [Option.map_id_fun, id]
  case block =>
    intro statements
    exact congrArg Block.mk (List.map_id statements)
  -- The other constructors take their parts as they are.
  all_goals intros; rfl

end Translation

/-- Replaying a tree, a clause, a block or a list on a session that does not fold gives it back, and
leaves the session as it was but for its line. -/
theorem replay_returns (p : Product) (s : Session)
    (hs : s.options.constantFolding = false) :
    ∃ line, p.replay.run s = (p, s.setLine line) := by
  have hreplay := p.yields_replay Translation.identity_reaches
  rw [Translation.product_identity] at hreplay
  exact hreplay s hs

/-- A branch with a call without arguments, a quotient without a value, a loop of which only the
test is there, and a last block that is there but empty. -/
def sparseBranch : Product :=
  .statement (.ifElse 4 (.call 3 "f" none)
    ⟨[.forLoop 6 none (some (.binary 5 .div (.literal 5 (.integer 1)) (.literal 2 (.integer 0))))
      none ⟨[]⟩]⟩ none (some ⟨[]⟩))

/-- What is missing stays missing, and what is empty stays empty. -/
theorem replay_returns_sparse : (sparseBranch.replay.run (.start ⟨false, 1⟩)).1 = sparseBranch := by
  obtain ⟨line, hreplay⟩ := replay_returns sparseBranch (.start ⟨false, 1⟩) rfl
  rw [hreplay]

end ScriptTree
