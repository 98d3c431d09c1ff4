import Dynamo.BlockManager.Block
import Dynamo.Tokens.Sequence

/-!
# The Content of a Block, as Its Caller Sees It

What `BlockExt` promises about the tokens a block holds, and that the three
layers implementing it (`BlockExt`, `BlockState` and `PartialTokenBlock`)
keep the promise. `Content` is the abstract state: a reset block holds
nothing, a block being filled holds its salt and a list of tokens, and a
complete block holds a `TokenBlock`. `Content.step` says what each call does
to it, or that the call is refused. A sequence starts only on a reset block.
Tokens are added and popped, and the block committed, only while it is being
filled, and then the list is a stack bounded by the page size `p`. A commit
is allowed at exactly `p` tokens and produces the block the bulk
`split_tokens` makes of them. A token block is applied only to a reset block
and only when it fills a page.

`Content.toState` is the state that represents a content: the partial block
of a filling content has the page size as its block size and no parent,
because `initialize_sequence` makes a sequence root and nothing before a
commit changes that. `call_toState` is the refinement for one call: the
block's call succeeds exactly when the content machine takes it, and the
block then holds the next content. Each source function returns its `Err`
before its first write, so a refused call leaves the block as it was; that
is `Block.step`. `run_toState` extends the refinement to every run, by
induction on the calls.

The commit is the one case with an argument: the incremental commit of a
root partial block of `p` tokens hashes the same chunk, with no parent, that
the bulk split hashes for its first block (`firstSplitBlock_of_length_eq`).

## Main definitions

* `Content`: What a block holds, as its caller sees it.
* `Content.step`: What a call does to the content, or that it is refused.
* `Content.toState`: The block state that represents a content.
* `Content.Valid`: A content keeps within its page.
* `Block.step`, `Block.run`: A call and a run of calls on a block, a refused
  call leaving the block as it was.

## Theorems

* `firstSplitBlock_of_length_eq`: Committing a page of tokens makes the first
  block of their bulk split.
* `call_toState`: One call on a block refines one step of the content machine.
* `run_toState`: Every run of calls refines the content machine's run.
* `valid_run`: A block never holds more than a page.
* `len_add_remaining`: While a block is filled, what it holds and what it has
  room for add up to the page size.
-/

namespace Dynamo

namespace BlockManager

open Tokens

/-- What a block holds, as its caller sees it. -/
inductive Content where
  | reset
  | filling (saltHash : SaltHash) (tokens : List Token)
  | complete (tokenBlock : TokenBlock)
  deriving DecidableEq, Repr

namespace Content

variable {M : Type}

/-- The first block `split_tokens` makes of some tokens, if it makes one. -/
def firstSplitBlock (xxh3 : Xxh3) (tokens : List Token) (blockSize : Nat) (saltHash : SaltHash) :
    Option TokenBlock :=
  match TokenBlockSequence.splitTokens xxh3 tokens blockSize saltHash with
  | .ok (blocks, _) => blocks.head?
  | .error _ => none

/-- What a call does to the content of a block whose pages hold `p` tokens,
    or `none` when the call is refused. -/
def step (xxh3 : Xxh3) (p : Nat) (c : BlockCall M) (a : Content) : Option Content :=
  match c, a with
  | .reset, _ => some .reset
  | .updateMetadata _, a => some a
  | .initSequence saltHash, .reset => some (.filling saltHash [])
  | .addToken t, .filling saltHash ts =>
      if ts.length < p then some (.filling saltHash (ts ++ [t])) else none
  -- the tokens that fit are added; the rest are handed back
  | .addTokens us, .filling saltHash ts =>
      some (.filling saltHash (ts ++ us.take (p - ts.length)))
  | .popToken, .filling saltHash ts =>
      if ts = [] then none else some (.filling saltHash ts.dropLast)
  | .popTokens k, .filling saltHash ts =>
      if k ≤ ts.length then some (.filling saltHash (ts.take (ts.length - k))) else none
  | .commit, .filling saltHash ts =>
      if ts.length = p then (firstSplitBlock xxh3 ts p saltHash).map .complete else none
  | .applyTokenBlock tb, .reset =>
      if tb.tokens.length = p then some (.complete tb) else none
  | _, _ => none

/-- The partial block of a content being filled: a sequence root with the
    page size as its block size. -/
def fillingBlock (p : Nat) (saltHash : SaltHash) (tokens : List Token) : PartialTokenBlock :=
  { tokens := tokens, blockSize := p, saltHash := saltHash, parentSequenceHash := none }

/-- The block state that represents a content. -/
def toState (p : Nat) : Content → BlockState
  | .reset => .reset
  | .filling saltHash tokens => .partialState (fillingBlock p saltHash tokens)
  | .complete tokenBlock => .complete tokenBlock

/-- A content keeps within its page: a block being filled holds at most `p`
    tokens and a complete one exactly `p`. -/
def Valid (p : Nat) : Content → Prop
  | .reset => True
  | .filling _ tokens => tokens.length ≤ p
  | .complete tokenBlock => tokenBlock.tokens.length = p

/-- A run of calls on a content; a refused call leaves it as it was. -/
def run (xxh3 : Xxh3) (p : Nat) : List (BlockCall M) → Content → Content
  | [], a => a
  | c :: cs, a => run xxh3 p cs ((step xxh3 p c a).getD a)

end Content

namespace Block

variable {M : Type} [BlockMetadata M]

/-- The block after a call, as the source's `&mut self` methods leave it:
    each returns its `Err` before its first write, so a refused call changes
    nothing. -/
def step (xxh3 : Xxh3) (c : BlockCall M) (b : Block M) : Block M :=
  match b.call xxh3 c with
  | .ok b' => b'
  | .error _ => b

/-- A run of calls on a block. -/
def run (xxh3 : Xxh3) : List (BlockCall M) → Block M → Block M
  | [], b => b
  | c :: cs, b => run xxh3 cs (b.step xxh3 c)

end Block

namespace Content

variable {M : Type} (xxh3 : Xxh3) {p : Nat}

@[simp]
theorem toState_registeredHandle (a : Content) : (a.toState p).registeredHandle = none := by
  cases a <;> rfl

/-- A root partial block of `p` tokens commits to the first block of their
    bulk split: both hash the one chunk with no parent. -/
theorem firstSplitBlock_of_length_eq (hp : 0 < p) {ts : List Token} (h : ts.length = p)
    (saltHash : SaltHash) :
    firstSplitBlock xxh3 ts p saltHash =
      some (TokenBlock.fromChunk xxh3 (TokenBlockChunk.new xxh3 ts saltHash) none) := by
  rw [firstSplitBlock, TokenBlockSequence.splitTokens_eq_ok xxh3 hp]
  dsimp only
  rw [TokenBlockSequence.splitBlocks, TokenBlockSequence.splitChunks,
    List.chunksExact_of_length_eq hp h]
  rfl

/-- Every step the machine takes keeps the content within its page. -/
theorem valid_step (hp : 0 < p) {c : BlockCall M} {a a' : Content} (ha : a.Valid p)
    (h : step xxh3 p c a = some a') : a'.Valid p := by
  cases c with
  | reset => cases h; trivial
  | updateMetadata m => cases h; exact ha
  | initSequence saltHash =>
      cases a <;> cases h
      exact Nat.zero_le p
  | addToken t =>
      cases a with
      | filling saltHash ts =>
          by_cases hlt : ts.length < p
          · simp only [step, if_pos hlt, Option.some.injEq] at h
            subst h
            show (ts ++ [t]).length ≤ p
            rw [List.length_append, List.length_singleton]
            omega
          · simp only [step, if_neg hlt, reduceCtorEq] at h
      | reset => cases h
      | complete tb => cases h
  | addTokens us =>
      cases a with
      | filling saltHash ts =>
          have hts : ts.length ≤ p := ha
          simp only [step, Option.some.injEq] at h
          subst h
          show (ts ++ us.take (p - ts.length)).length ≤ p
          rw [List.length_append, List.length_take]
          omega
      | reset => cases h
      | complete tb => cases h
  | popToken =>
      cases a with
      | filling saltHash ts =>
          by_cases hnil : ts = []
          · simp only [step, if_pos hnil, reduceCtorEq] at h
          · simp only [step, if_neg hnil, Option.some.injEq] at h
            subst h
            show ts.dropLast.length ≤ p
            rw [List.length_dropLast]
            exact Nat.le_trans (Nat.sub_le _ _) ha
      | reset => cases h
      | complete tb => cases h
  | popTokens k =>
      cases a with
      | filling saltHash ts =>
          by_cases hk : k ≤ ts.length
          · simp only [step, if_pos hk, Option.some.injEq] at h
            subst h
            show (ts.take (ts.length - k)).length ≤ p
            rw [List.length_take]
            exact Nat.le_trans (Nat.min_le_right _ _) ha
          · simp only [step, if_neg hk, reduceCtorEq] at h
      | reset => cases h
      | complete tb => cases h
  | commit =>
      cases a with
      | filling saltHash ts =>
          by_cases hfull : ts.length = p
          · -- the committed block holds the page of tokens
            simp only [step, if_pos hfull, firstSplitBlock_of_length_eq xxh3 hp hfull,
              Option.map_some, Option.some.injEq] at h
            subst h
            exact hfull
          · simp only [step, if_neg hfull, reduceCtorEq] at h
      | reset => cases h
      | complete tb => cases h
  | applyTokenBlock tb =>
      cases a with
      | reset =>
          by_cases hfit : tb.tokens.length = p
          · simp only [step, if_pos hfit, Option.some.injEq] at h
            subst h
            exact hfit
          · simp only [step, if_neg hfit, reduceCtorEq] at h
      | filling saltHash ts => cases h
      | complete tb' => cases h

/-- A run of the machine keeps the content within its page. -/
theorem valid_run (hp : 0 < p) (calls : List (BlockCall M)) :
    ∀ a : Content, a.Valid p → (run xxh3 p calls a).Valid p := by
  induction calls with
  | nil => intro a ha; exact ha
  | cons c cs ih =>
      intro a ha
      apply ih
      cases hs : step xxh3 p c a with
      | none => exact ha
      | some a' => exact valid_step xxh3 hp ha hs

/-- While a block is filled, the tokens it holds and the room it has left add
    up to the page size. -/
theorem len_add_remaining {b : Block M} {a : Content} (hb : b.state = a.toState p)
    (ha : a.Valid p) {block : PartialTokenBlock} (hblock : b.state = .partialState block) :
    b.len + b.remaining = p := by
  cases a with
  | filling saltHash ts =>
      have hts : ts.length ≤ p := ha
      simp only [Block.len, Block.remaining, hb, toState, BlockState.len, BlockState.remaining,
        PartialTokenBlock.len, PartialTokenBlock.remaining, fillingBlock, Option.getD_some]
      omega
  | reset => rw [hb] at hblock; cases hblock
  | complete tb => rw [hb] at hblock; cases hblock

section Calls

variable [BlockMetadata M]

/-- One call on a block that holds what `a` represents: it succeeds exactly
    when the content machine takes it, and the block then holds what the
    machine moves to. -/
theorem call_toState (hp : 0 < p) {b : Block M} {a : Content} (hpage : b.data.pageSize = p)
    (hb : b.state = a.toState p) (c : BlockCall M) :
    (b.call xxh3 c).toOption.map Block.state = (step xxh3 p c a).map (toState p) := by
  cases c with
  | reset => rfl
  | updateMetadata m => exact congrArg some hb
  | initSequence saltHash =>
      rw [Block.call, Block.toOption_map_withState, hb, hpage]
      cases a <;> rfl
  | addToken t =>
      rw [Block.call, Block.toOption_map_withState, hb]
      cases a with
      | reset => rfl
      | complete tb => rfl
      | filling saltHash ts =>
          rw [toState, BlockState.addToken, BlockState.toOption_onPartialBlock_partialState]
          by_cases h : ts.length < p
          · -- there is room for one more token
            simp only [step, if_pos h, PartialTokenBlock.pushToken, fillingBlock, ge_iff_le,
              Nat.not_le.mpr h, if_false]
            rfl
          · simp only [step, if_neg h, PartialTokenBlock.pushToken, fillingBlock, ge_iff_le,
              Nat.not_lt.mp h, if_true]
            rfl
  | addTokens us =>
      cases a with
      | reset => rw [Block.call, hb]; rfl
      | complete tb => rw [Block.call, hb]; rfl
      | filling saltHash ts =>
          rw [Block.call, hb, toState, BlockState.addTokens_partialState]
          rfl
  | popToken =>
      rw [Block.call, Block.toOption_map_withState, hb]
      cases a with
      | reset => rfl
      | complete tb => rfl
      | filling saltHash ts =>
          rw [toState, BlockState.popToken, BlockState.toOption_onPartialBlock_partialState]
          by_cases h : ts = []
          · simp only [step, PartialTokenBlock.popToken, fillingBlock, h, List.isEmpty_nil,
              if_true]
            rfl
          · simp only [step, if_neg h, PartialTokenBlock.popToken, fillingBlock,
              List.isEmpty_eq_false_iff.mpr h, Bool.false_eq_true, if_false]
            rfl
  | popTokens k =>
      rw [Block.call, Block.toOption_map_withState, hb]
      cases a with
      | reset => rfl
      | complete tb => rfl
      | filling saltHash ts =>
          rw [toState, BlockState.popTokens, BlockState.toOption_onPartialBlock_partialState]
          by_cases h : k ≤ ts.length
          · simp only [step, if_pos h, PartialTokenBlock.popTokens, fillingBlock,
              Nat.not_lt.mpr h, if_false]
            rfl
          · simp only [step, if_neg h, PartialTokenBlock.popTokens, fillingBlock,
              Nat.lt_of_not_le h, if_true]
            rfl
  | commit =>
      rw [Block.call, Block.toOption_map_withState, hb]
      cases a with
      | reset => rfl
      | complete tb => rfl
      | filling saltHash ts =>
          rw [toState, BlockState.commit, BlockState.toOption_onPartialBlock_partialState]
          by_cases h : ts.length = p
          · -- a full page commits to the first block of its bulk split
            rw [PartialTokenBlock.commit_eq_ok xxh3 _ h]
            simp only [step, if_pos h, firstSplitBlock_of_length_eq xxh3 hp h]
            rfl
          · rw [PartialTokenBlock.commit_eq_error xxh3 _ h]
            simp only [step, if_neg h]
            rfl
  | applyTokenBlock tb =>
      rw [Block.call, Block.applyTokenBlock, hpage]
      by_cases h : tb.tokens.length = p
      · rw [if_neg (fun h' => h' h.symm), Block.toOption_map_withState, hb]
        cases a with
        | reset => simp only [step, if_pos h]; rfl
        | filling saltHash ts => rfl
        | complete tb' => rfl
      · rw [if_pos (fun h' => h h'.symm)]
        cases a with
        | reset => simp only [step, if_neg h]; rfl
        | filling saltHash ts => rfl
        | complete tb' => rfl

/-- After a call, refused or not, the block holds what the machine's next
    content represents, and keeps its data. -/
theorem step_toState (hp : 0 < p) {b : Block M} {a : Content} (hpage : b.data.pageSize = p)
    (hb : b.state = a.toState p) (c : BlockCall M) :
    (b.step xxh3 c).state = ((step xxh3 p c a).getD a).toState p ∧
      (b.step xxh3 c).data = b.data := by
  have h := call_toState xxh3 hp hpage hb c
  unfold Block.step
  cases hc : b.call xxh3 c with
  | ok b' =>
      rw [hc] at h
      cases hs : step xxh3 p c a with
      | none => rw [hs] at h; cases h
      | some a' =>
          rw [hs] at h
          have hunreg : b.state.registeredHandle = none := by
            rw [hb]
            exact toState_registeredHandle a
          exact ⟨Option.some.inj h, (Block.call_registeredHandle hunreg hc).2⟩
  | error e =>
      -- a refused call: the machine refuses it too, and the block is unchanged
      rw [hc] at h
      cases hs : step xxh3 p c a with
      | none => exact ⟨hb, rfl⟩
      | some a' => rw [hs] at h; cases h

/-- Every run of calls on a block that holds what `a` represents leaves it
    holding what the machine's run from `a` represents. -/
theorem run_toState (hp : 0 < p) (calls : List (BlockCall M)) :
    ∀ (b : Block M) (a : Content), b.data.pageSize = p → b.state = a.toState p →
      (Block.run xxh3 calls b).state = (run xxh3 p calls a).toState p ∧
        (Block.run xxh3 calls b).data = b.data := by
  induction calls with
  | nil => intro b a _ hb; exact ⟨hb, rfl⟩
  | cons c cs ih =>
      intro b a hpage hb
      rcases step_toState xxh3 hp hpage hb c with ⟨hstate, hdata⟩
      have hpage' : (b.step xxh3 c).data.pageSize = p := by rw [hdata]; exact hpage
      rcases ih (b.step xxh3 c) _ hpage' hstate with ⟨hrun, hrundata⟩
      exact ⟨hrun, hrundata.trans hdata⟩

end Calls

end Content

section Machine

variable {M : Type} [BlockMetadata M]

theorem block_refines_content_machine (xxh3 : Xxh3) {p : Nat} (hp : 0 < p) (b₀ : Block M)
    (hpage : b₀.data.pageSize = p) (hreset : b₀.state = .reset) (calls : List (BlockCall M)) :
    let b : Block M := Block.run xxh3 calls b₀
    let a : Content := Content.run xxh3 p calls .reset
    b.state = a.toState p ∧ a.Valid p ∧
      (∀ c : BlockCall M,
        (b.call xxh3 c).toOption.map Block.state =
          (Content.step xxh3 p c a).map (Content.toState p) ∧
        ∀ e, b.call xxh3 c = .error e → b.step xxh3 c = b) ∧
      (∀ block, b.state = .partialState block →
        b.len + b.remaining = p ∧
        ∀ us, b.state.addTokens us = .ok
          (.partialState { block with tokens := block.tokens ++ us.take b.remaining },
            us.drop b.remaining)) ∧
      b.sequenceHash.isOk = b.state.isComplete := by
  intro b a
  rcases Content.run_toState xxh3 hp calls b₀ .reset hpage hreset with ⟨hstate, hdata⟩
  have hvalid : a.Valid p := Content.valid_run xxh3 hp calls .reset trivial
  have hpage' : b.data.pageSize = p := by rw [hdata]; exact hpage
  refine ⟨hstate, hvalid, fun c => ⟨Content.call_toState xxh3 hp hpage' hstate c, ?_⟩, ?_,
    Block.sequenceHash_isOk b⟩
  · -- a refused call leaves the block as it was
    intro e he
    unfold Block.step
    rw [he]
  · intro block hblock
    refine ⟨Content.len_add_remaining hstate hvalid hblock, fun us => ?_⟩
    rw [Block.remaining, hblock, BlockState.addTokens_partialState]
    rfl

theorem block_refines_content_machine_of_init :
    0 < 2 ∧ (Block.new (M := BasicMetadata) ⟨0, 2⟩ ⟨0, 0, 0⟩).data.pageSize = 2 ∧
      (Block.new (M := BasicMetadata) ⟨0, 2⟩ ⟨0, 0, 0⟩).state = .reset ∧
      (Block.run (fun _ seed => seed) [.initSequence 7] (Block.new (M := BasicMetadata) ⟨0, 2⟩ ⟨0, 0, 0⟩)).state =
        (Content.run (fun _ seed => seed) 2 [(.initSequence 7 : BlockCall BasicMetadata)]
          .reset).toState 2 ∧
      (Content.run (fun _ seed => seed) 2 [(.initSequence 7 : BlockCall BasicMetadata)]
        .reset).Valid 2 ∧
      (∀ c : BlockCall BasicMetadata,
        ((Block.run (fun _ seed => seed) [.initSequence 7]
            (Block.new (M := BasicMetadata) ⟨0, 2⟩ ⟨0, 0, 0⟩)).call (fun _ seed => seed) c).toOption.map Block.state =
          (Content.step (fun _ seed => seed) 2 c (Content.run (fun _ seed => seed) 2
            [(.initSequence 7 : BlockCall BasicMetadata)] .reset)).map (Content.toState 2) ∧
        ∀ e, (Block.run (fun _ seed => seed) [.initSequence 7]
            (Block.new (M := BasicMetadata) ⟨0, 2⟩ ⟨0, 0, 0⟩)).call (fun _ seed => seed) c = .error e →
          (Block.run (fun _ seed => seed) [.initSequence 7]
            (Block.new (M := BasicMetadata) ⟨0, 2⟩ ⟨0, 0, 0⟩)).step (fun _ seed => seed) c =
            Block.run (fun _ seed => seed) [.initSequence 7] (Block.new (M := BasicMetadata) ⟨0, 2⟩ ⟨0, 0, 0⟩)) ∧
      (∀ block, (Block.run (fun _ seed => seed) [.initSequence 7]
          (Block.new (M := BasicMetadata) ⟨0, 2⟩ ⟨0, 0, 0⟩)).state = .partialState block →
        (Block.run (fun _ seed => seed) [.initSequence 7]
            (Block.new (M := BasicMetadata) ⟨0, 2⟩ ⟨0, 0, 0⟩)).len +
          (Block.run (fun _ seed => seed) [.initSequence 7]
            (Block.new (M := BasicMetadata) ⟨0, 2⟩ ⟨0, 0, 0⟩)).remaining = 2 ∧
        ∀ us, (Block.run (fun _ seed => seed) [.initSequence 7]
            (Block.new (M := BasicMetadata) ⟨0, 2⟩ ⟨0, 0, 0⟩)).state.addTokens us = .ok
          (.partialState ⟨block.tokens ++ us.take
              (Block.run (fun _ seed => seed) [.initSequence 7]
                (Block.new (M := BasicMetadata) ⟨0, 2⟩ ⟨0, 0, 0⟩)).remaining,
              block.blockSize, block.saltHash, block.parentSequenceHash⟩,
            us.drop (Block.run (fun _ seed => seed) [.initSequence 7]
              (Block.new (M := BasicMetadata) ⟨0, 2⟩ ⟨0, 0, 0⟩)).remaining)) ∧
      (Block.run (fun _ seed => seed) [.initSequence 7]
          (Block.new (M := BasicMetadata) ⟨0, 2⟩ ⟨0, 0, 0⟩)).sequenceHash.isOk =
        (Block.run (fun _ seed => seed) [.initSequence 7]
          (Block.new (M := BasicMetadata) ⟨0, 2⟩ ⟨0, 0, 0⟩)).state.isComplete :=
  ⟨by decide, rfl, rfl, block_refines_content_machine (fun _ seed => seed) (by decide)
    (Block.new (M := BasicMetadata) ⟨0, 2⟩ ⟨0, 0, 0⟩) rfl rfl [.initSequence 7]⟩

end Machine

end BlockManager

end Dynamo
