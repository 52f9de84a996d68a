/-!
# Stable sorting by a strict comparison

`Sort.stable lt xs` is the adaptive merge sort of lists by natural runs:

* The list is cut into runs from the left (`takeRun`): a strictly decreasing stretch, turned
  around, or else the longest stretch in which no element is less than the one before it. A run
  shorter than the minimum run length (`minRun`: the whole list below 64 elements, otherwise
  between 32 and 64) is lengthened by binary insertion of the elements after it (`insertSorted`).
* Runs go on a stack. The boundary between a run and the next one gets a power (`power`): the
  depth at which a perfectly balanced merge of the whole list would split there. Before a run is
  pushed, the runs above any boundary of greater power are merged (`settle`); at the end the stack
  is merged from the top (`collapse`).
* Two neighbouring runs are merged (`mergeRuns`) after trimming the elements already in place at
  either end. The rest is merged from the fronts (`mergeLow`) or, when the second run is the
  shorter, from the backs (`mergeHigh`). After a number of wins in a row by one side, the merge
  gallops: an exponential, then binary, search (`gallopLeft`, `gallopRight`) finds how many elements
  that side gives at once. The number of wins that starts galloping (seven at first) falls while
  galloping pays and rises when it stops, over the whole sort.

For a strict weak order this is the stable sort: equal elements keep their order. The exact
procedure matters only when `lt` is not a strict weak order, as with keys holding a NaN: the result
then depends on which pairs are compared, and in which order.

`Sort.stableM` runs the sort with a comparison in any monad, so that a comparison that may fail
(`Sort.stableE`) fails the sort at the first failing comparison.
-/

namespace TradeDesk.Sort

/-! ## Lengths and powers -/

/-- The minimum run length for `n` elements, with `carry` set once a halving has dropped a set bit:
`n` itself below 64, otherwise `n` halved until it is below 64, plus the carry. -/
def minRunFrom (n carry : Nat) : Nat :=
  if n < 64 then n + carry else minRunFrom (n / 2) (max carry (n % 2))
termination_by n
decreasing_by omega

/-- The minimum run length for a list of `n` elements. -/
def minRun (n : Nat) : Nat := minRunFrom n 0

/-- The power search: `a` and `b` are the two doubled midpoints as fractions of `n`, compared one
binary digit at a time; `result` is the digit being compared. -/
def powerFrom (n a b result : Nat) : Nat → Nat
  | 0 => result
  | fuel + 1 =>
    if n ≤ a then powerFrom n (2 * (a - n)) (2 * (b - n)) (result + 1) fuel
    else if n ≤ b then result
    else powerFrom n (2 * a) (2 * b) (result + 1) fuel

/-- The power of the boundary between a run of `n1` elements starting at `s1` and the next run of
`n2` elements, in a list of `n`: the first binary digit at which the midpoints of the two runs, as
fractions of `n`, differ. -/
def power (s1 n1 n2 n : Nat) : Nat :=
  powerFrom n (2 * s1 + n1) (2 * s1 + n1 + n1 + n2) 1 (n + 1)

/-- The number of wins in a row that starts galloping at the beginning of a sort. -/
def minGallop : Nat := 7

variable {m : Type → Type} [Monad m] {β : Type}

/-! ## Searches -/

/-- The exponential part of a gallop: starting from offsets `last < ofs`, while `ofs` is below
`limit` and `more ofs` holds, `last` takes `ofs` and `ofs` doubles plus one. The final pair, with
`ofs` capped at `limit`. -/
def expand (more : Nat → m Bool) (limit last ofs : Nat) : m (Nat × Nat) :=
  if h : ofs < limit then do
    if ← more ofs then expand more limit ofs (2 * ofs + 1) else pure (last, ofs)
  else pure (last, limit)
termination_by limit - ofs

/-- Binary search of `[l, r)` for the first position at which `before` fails, assuming it holds up
to some position and fails after. -/
def search (before : Nat → m Bool) (l r : Nat) : m Nat :=
  if h : l < r then do
    let mid := l + (r - l) / 2
    if ← before mid then search before (mid + 1) r else search before l mid
  else pure l
termination_by r - l

/-- Where `key` goes among `n` sorted elements `get 0, …, get (n - 1)`: before every element it is
not greater than. The search starts at `hint` and gallops away from it. -/
def gallopLeft (lt : β → β → m Bool) (key : β) (get : Nat → β) (n hint : Nat) : m Nat := do
  if ← lt (get hint) key then
    let (last, ofs) ← expand (fun o => lt (get (hint + o)) key) (n - hint) 0 1
    search (fun i => lt (get i) key) (last + hint + 1) (ofs + hint)
  else
    let (last, ofs) ← expand (fun o => do return !(← lt (get (hint - o)) key)) (hint + 1) 0 1
    search (fun i => lt (get i) key) (hint + 1 - ofs) (hint - last)

/-- Where `key` goes among `n` sorted elements `get 0, …, get (n - 1)`: after every element it is
not less than. The search starts at `hint` and gallops away from it. -/
def gallopRight (lt : β → β → m Bool) (key : β) (get : Nat → β) (n hint : Nat) : m Nat := do
  if ← lt key (get hint) then
    let (last, ofs) ← expand (fun o => lt key (get (hint - o))) (hint + 1) 0 1
    search (fun i => do return !(← lt key (get i))) (hint + 1 - ofs) (hint - last)
  else
    let (last, ofs) ← expand (fun o => do return !(← lt key (get (hint + o)))) (n - hint) 0 1
    search (fun i => do return !(← lt key (get i))) (last + hint + 1) (ofs + hint)

/-! ## Runs -/

/-- A strictly decreasing run continued from `prev`; the run so far is kept in `acc` in increasing
order. Returns the run turned around and the rest. -/
def descending (lt : β → β → m Bool) (prev : β) (acc : List β) : List β → m (List β × List β)
  | [] => pure (acc, [])
  | x :: xs => do
    if ← lt x prev then descending lt x (x :: acc) xs else pure (acc, x :: xs)

/-- A run in which no element is less than the one before it, continued from `prev`; the run so far
is kept in `acc` from the last element back. -/
def ascending (lt : β → β → m Bool) (prev : β) (acc : List β) : List β → m (List β × List β)
  | [] => pure (acc.reverse, [])
  | x :: xs => do
    if ← lt x prev then pure (acc.reverse, x :: xs) else ascending lt x (x :: acc) xs

/-- The run at the front of a list, in increasing order, and the elements after it. -/
def takeRun (lt : β → β → m Bool) : List β → m (List β × List β)
  | [] => pure ([], [])
  | [a] => pure ([a], [])
  | a :: b :: rest => do
    if ← lt b a then descending lt b [b, a] rest else ascending lt b [b, a] rest

/-- `x` inserted into a sorted list after every element it is not less than, the place found by
binary search. -/
def insertSorted (lt : β → β → m Bool) (sorted : List β) (x : β) : m (List β) := do
  let arr := sorted.toArray
  let i ← search (fun p => do return !(← lt x (arr.getD p x))) 0 arr.size
  pure (sorted.take i ++ x :: sorted.drop i)

/-! ## Merging two runs -/

/-- What a merge is doing: taking one element at a time, with the current numbers of wins in a row
by each side, or galloping. -/
inductive Stage where
  | plain (aWins bWins : Nat)
  | gallop

/-- The end of a merge from the fronts: the merged elements, then what is left of each run. -/
def lowDone (a b : Array β) (i j : Nat) (out : Array β) : List β :=
  (out ++ a.extract i a.size ++ b.extract j b.size).toList

/-- The end of a merge from the fronts when one element of the first run is left: it is the
greatest, and goes after what is left of the second run. -/
def lowLast (a b : Array β) (i j : Nat) (out : Array β) : List β :=
  (out ++ b.extract j b.size ++ a.extract i a.size).toList

/-- The galloping threshold lowered by one while it is above one. -/
def lowered (g : Nat) : Nat := if g > 1 then g - 1 else g

/-- A merge from the fronts under way: `a[i..]` and `b[j..]` are left, `out` is merged, `g` is the
galloping threshold. Each step places at least one element. -/
def lowSteps (lt : β → β → m Bool) :
    Nat → Array β → Array β → Nat → Nat → Array β → Nat → Stage → m (List β × Nat)
  | 0, a, b, i, j, out, g, _ => pure (lowDone a b i j out, g)
  | fuel + 1, a, b, i, j, out, g, .plain aw bw =>
    match a[i]?, b[j]? with
    | some x, some y => do
      if ← lt y x then
        let out := out.push y
        if j + 1 == b.size then pure (lowDone a b i (j + 1) out, g)
        else if bw + 1 ≥ g then lowSteps lt fuel a b i (j + 1) out (g + 1) .gallop
        else lowSteps lt fuel a b i (j + 1) out g (.plain 0 (bw + 1))
      else
        let out := out.push x
        if a.size - (i + 1) == 1 then pure (lowLast a b (i + 1) j out, g)
        else if aw + 1 ≥ g then lowSteps lt fuel a b (i + 1) j out (g + 1) .gallop
        else lowSteps lt fuel a b (i + 1) j out g (.plain (aw + 1) 0)
    | _, _ => pure (lowDone a b i j out, g)
  | fuel + 1, a, b, i, j, out, g, .gallop =>
    let g := lowered g
    match b[j]? with
    | none => pure (lowDone a b i j out, g)
    | some y => do
      let k ← gallopRight lt y (fun t => a.getD (i + t) y) (a.size - i) 0
      let out := out ++ a.extract i (i + k)
      let i := i + k
      if a.size - i == 1 then pure (lowLast a b i j out, g)
      else if a.size ≤ i then pure (lowDone a b i j out, g)
      else
        let out := out.push y
        let j := j + 1
        if b.size ≤ j then pure (lowDone a b i j out, g)
        else match a[i]? with
          | none => pure (lowDone a b i j out, g)
          | some x => do
            let k2 ← gallopLeft lt x (fun t => b.getD (j + t) x) (b.size - j) 0
            let out := out ++ b.extract j (j + k2)
            let j := j + k2
            if b.size ≤ j then pure (lowDone a b i j out, g)
            else
              let out := out.push x
              let i := i + 1
              if a.size - i == 1 then pure (lowLast a b i j out, g)
              else if k ≥ minGallop || k2 ≥ minGallop then lowSteps lt fuel a b i j out g .gallop
              else lowSteps lt fuel a b i j out (g + 1) (.plain 0 0)

/-- Two runs merged from the fronts, the first no longer than the second, whose first element is
known to go first; with the galloping threshold after. -/
def mergeLow (lt : β → β → m Bool) (g : Nat) (a b : Array β) : m (List β × Nat) :=
  match b[0]? with
  | none => pure (a.toList, g)
  | some b0 =>
    if b.size == 1 then pure (b0 :: a.toList, g)
    else if a.size == 1 then pure (lowLast a b 0 1 #[b0], g)
    else lowSteps lt (a.size + b.size) a b 0 1 #[b0] g (.plain 0 0)

/-- The end of a merge from the backs: what is left of each run, then the merged elements. -/
def highDone (a b : Array β) (ia ib : Nat) (tail : List β) : List β :=
  (a.extract 0 ia).toList ++ (b.extract 0 ib).toList ++ tail

/-- The end of a merge from the backs when one element of the second run is left: it is the least,
and goes before what is left of the first run. -/
def highFirst (a b : Array β) (ia ib : Nat) (tail : List β) : List β :=
  (b.extract 0 ib).toList ++ (a.extract 0 ia).toList ++ tail

/-- A merge from the backs under way: `a[..ia]` and `b[..ib]` are left, `tail` is merged, `g` is the
galloping threshold. Each step places at least one element. -/
def highSteps (lt : β → β → m Bool) :
    Nat → Array β → Array β → Nat → Nat → List β → Nat → Stage → m (List β × Nat)
  | 0, a, b, ia, ib, tail, g, _ => pure (highDone a b ia ib tail, g)
  | fuel + 1, a, b, ia, ib, tail, g, .plain aw bw =>
    match a[ia - 1]?, b[ib - 1]? with
    | some x, some y => do
      if ← lt y x then
        if ia - 1 == 0 then pure (highDone a b 0 ib (x :: tail), g)
        else if aw + 1 ≥ g then highSteps lt fuel a b (ia - 1) ib (x :: tail) (g + 1) .gallop
        else highSteps lt fuel a b (ia - 1) ib (x :: tail) g (.plain (aw + 1) 0)
      else
        if ib - 1 == 1 then pure (highFirst a b ia 1 (y :: tail), g)
        else if bw + 1 ≥ g then highSteps lt fuel a b ia (ib - 1) (y :: tail) (g + 1) .gallop
        else highSteps lt fuel a b ia (ib - 1) (y :: tail) g (.plain 0 (bw + 1))
    | _, _ => pure (highDone a b ia ib tail, g)
  | fuel + 1, a, b, ia, ib, tail, g, .gallop =>
    let g := lowered g
    match b[ib - 1]? with
    | none => pure (highDone a b ia ib tail, g)
    | some y => do
      let k := ia - (← gallopRight lt y (fun t => a.getD t y) ia (ia - 1))
      let tail := (a.extract (ia - k) ia).toList ++ tail
      let ia := ia - k
      if ia == 0 then pure (highDone a b ia ib tail, g)
      else
        let tail := y :: tail
        let ib := ib - 1
        if ib == 1 then pure (highFirst a b ia ib tail, g)
        else match a[ia - 1]? with
          | none => pure (highDone a b ia ib tail, g)
          | some x => do
            let k2 := ib - (← gallopLeft lt x (fun t => b.getD t x) ib (ib - 1))
            let tail := (b.extract (ib - k2) ib).toList ++ tail
            let ib := ib - k2
            if ib == 1 then pure (highFirst a b ia ib tail, g)
            else if ib == 0 then pure (highDone a b ia ib tail, g)
            else
              let tail := x :: tail
              let ia := ia - 1
              if ia == 0 then pure (highDone a b ia ib tail, g)
              else if k ≥ minGallop || k2 ≥ minGallop then highSteps lt fuel a b ia ib tail g .gallop
              else highSteps lt fuel a b ia ib tail (g + 1) (.plain 0 0)

/-- Two runs merged from the backs, the second shorter than the first, whose last element is known
to go last; with the galloping threshold after. -/
def mergeHigh (lt : β → β → m Bool) (g : Nat) (a b : Array β) : m (List β × Nat) :=
  match a[a.size - 1]? with
  | none => pure (b.toList, g)
  | some aLast =>
    if a.size == 1 then pure (b.toList ++ [aLast], g)
    else if b.size == 1 then pure (highFirst a b (a.size - 1) 1 [aLast], g)
    else highSteps lt (a.size + b.size) a b (a.size - 1) b.size [aLast] g (.plain 0 0)

/-- Two neighbouring runs merged, with the galloping threshold after: the elements of the first run
that go before the second run's first element, and those of the second run that go after the
first run's last element, stay where they are; the rest is merged from the end of the shorter
part. -/
def mergeRuns (lt : β → β → m Bool) (g : Nat) (a b : List β) : m (List β × Nat) := do
  let aa := a.toArray
  let bb := b.toArray
  match bb[0]? with
  | none => pure (a ++ b, g)
  | some b0 =>
    let k ← gallopRight lt b0 (fun t => aa.getD t b0) aa.size 0
    let rest := aa.extract k aa.size
    match rest[rest.size - 1]? with
    | none => pure (a ++ b, g)
    | some aLast =>
      let nb ← gallopLeft lt aLast (fun t => bb.getD t aLast) bb.size (bb.size - 1)
      if nb == 0 then pure (a ++ b, g)
      else
        let front := bb.extract 0 nb
        let (merged, g) ← if rest.size ≤ nb then mergeLow lt g rest front else mergeHigh lt g rest front
        pure (a.take k ++ merged ++ b.drop nb, g)

/-! ## The stack of runs -/

/-- A sorted run waiting on the stack: its elements, where it starts in the list, and the power of
its boundary with the run above it. -/
structure Pending (β : Type) where
  items : List β
  start : Nat
  power : Nat

/-- The run on top of the stack merged into the run below it, which keeps its power. -/
def mergeTop (lt : β → β → m Bool) (stack : List (Pending β)) (g : Nat) :
    m (List (Pending β) × Nat) :=
  match stack with
  | top :: below :: rest => do
    let (items, g) ← mergeRuns lt g below.items top.items
    pure ({ below with items } :: rest, g)
  | _ => pure (stack, g)

/-- The second run from the top merged into the third; the top run stays on top. -/
def mergeUnder (lt : β → β → m Bool) (stack : List (Pending β)) (g : Nat) :
    m (List (Pending β) × Nat) :=
  match stack with
  | top :: second :: third :: rest => do
    let (items, g) ← mergeRuns lt g third.items second.items
    pure (top :: { third with items } :: rest, g)
  | _ => pure (stack, g)

/-- While the boundary below the top run has a greater power than `p`, the top run is merged into
the run below it. -/
def settle (lt : β → β → m Bool) (p : Nat) : Nat → List (Pending β) → Nat →
    m (List (Pending β) × Nat)
  | 0, stack, g => pure (stack, g)
  | fuel + 1, stack, g =>
    match stack with
    | _ :: below :: _ => do
      if below.power > p then
        let (stack, g) ← mergeTop lt stack g
        settle lt p fuel stack g
      else pure (stack, g)
    | _ => pure (stack, g)

/-- The stack merged down to one run, from the top: the top two runs, unless the third is shorter
than the top one, when the second and third are merged first. -/
def collapse (lt : β → β → m Bool) : Nat → List (Pending β) → Nat → m (List (Pending β) × Nat)
  | 0, stack, g => pure (stack, g)
  | fuel + 1, stack, g =>
    match stack with
    | top :: _ :: third :: _ => do
      let (stack, g) ← if third.items.length < top.items.length then mergeUnder lt stack g
        else mergeTop lt stack g
      collapse lt fuel stack g
    | _ :: _ :: _ => do
      let (stack, g) ← mergeTop lt stack g
      collapse lt fuel stack g
    | _ => pure (stack, g)

/-- The power of the top run set. -/
def withTopPower (p : Nat) : List (Pending β) → List (Pending β)
  | top :: rest => { top with power := p } :: rest
  | [] => []

/-- The runs of the list from position `lo` on pushed in turn, each lengthened to `least`
elements when it is shorter, and the stack settled before each push; `n` is the length of the
whole list. -/
def pushRuns (lt : β → β → m Bool) (n least : Nat) :
    Nat → List β → Nat → List (Pending β) → Nat → m (List (Pending β) × Nat)
  | 0, _, _, stack, g => pure (stack, g)
  | fuel + 1, xs, lo, stack, g =>
    if xs.isEmpty then pure (stack, g)
    else do
      let (run, rest) ← takeRun lt xs
      let (run, rest) ← if run.length < least then do
          let want := min xs.length least - run.length
          let grown ← (rest.take want).foldlM (insertSorted lt) run
          pure (grown, rest.drop want)
        else pure (run, rest)
      let (stack, g) ← match stack with
        | top :: _ => do
          let p := power top.start top.items.length run.length n
          let (stack, g) ← settle lt p stack.length stack g
          pure (withTopPower p stack, g)
        | [] => pure ([], g)
      pushRuns lt n least fuel rest (lo + run.length) ({ items := run, start := lo, power := 0 } :: stack) g

/-- The list sorted by a comparison in a monad (see the module note). -/
def stableM (lt : β → β → m Bool) (xs : List β) : m (List β) :=
  match xs with
  | [] | [_] => pure xs
  | _ => do
    let n := xs.length
    let (stack, g) ← pushRuns lt n (minRun n) (n + 1) xs 0 [] minGallop
    let (stack, _) ← collapse lt stack.length stack g
    pure (stack.reverse.flatMap (·.items))

/-- The list sorted by a comparison (see the module note). -/
def stable (lt : β → β → Bool) (xs : List β) : List β :=
  Id.run (stableM (fun a b => pure (lt a b)) xs)

/-- The list sorted by a comparison that may fail: the first failure is the result. -/
def stableE {ε : Type} (lt : β → β → Except ε Bool) (xs : List β) : Except ε (List β) :=
  stableM lt xs

end TradeDesk.Sort
