import LvdTerm.Vnc.Client

/-!
# VNC client: zlib streams

`inflateChunk` and `InflateState::reset`. The output loop for ZRLE (`expected < 0`)
has no bound of its own in the source; `Zlib.calls` bounds it and `inflateLoop_calls`
shows that the bound is never what ends the loop.
-/
namespace LvdTerm.Vnc

variable {E : Env}

/-- `InflateState::reset`: `none` when zlib refuses. -/
def InflateState.reset (s : InflateState E) : Option (InflateState E) :=
  match s.zs with
  | none => E.zlib.inflateInit.map fun zs => ⟨some zs⟩
  | some zs => (E.zlib.inflateReset zs).map fun zs => ⟨some zs⟩

/-- What `inflateChunk` leaves: its result, the stream and the output buffer. -/
structure Chunk (E : Env) where
  ok : Bool
  stream : E.zlib.Stream
  out : List UInt8

/-- `expected >= 0`: one call, and exactly that many bytes must come out. -/
def inflateExact (zs : E.zlib.Stream) (input : List UInt8) (expected : Nat) : Chunk E :=
  let r := E.zlib.inflate zs input expected
  { ok := r.rc ≠ .error ∧ r.output.length = expected
    stream := r.stream
    out := r.output }

/-- `expected < 0`: everything that comes out, 65536 bytes at a time. -/
def inflateLoop : Nat → E.zlib.Stream → List UInt8 → List UInt8 → Chunk E
  | 0, zs, _, out => ⟨false, zs, out⟩
  | fuel + 1, zs, input, out =>
    let r := E.zlib.inflate zs input 65536
    let out := out ++ r.output
    if r.rc = .error then ⟨false, r.stream, out⟩
    else if r.availIn = [] ∧ r.output.length ≠ 65536 then ⟨true, r.stream, out⟩
    else if r.rc = .streamEnd then ⟨true, r.stream, out⟩
    else inflateLoop fuel r.stream r.availIn out

def inflateAll (zs : E.zlib.Stream) (input : List UInt8) : Chunk E :=
  inflateLoop (E.zlib.calls zs input + 1) zs input []

/-- More rounds than `calls` change nothing: the loop ends on its own. -/
theorem inflateLoop_calls (n m : Nat) (zs : E.zlib.Stream) (input out : List UInt8)
    (hn : E.zlib.calls zs input < n) (hm : E.zlib.calls zs input < m) :
    inflateLoop n zs input out = inflateLoop m zs input out := by
  induction n generalizing m zs input out with
  | zero => omega
  | succ n ih =>
    cases m with
    | zero => omega
    | succ m =>
      simp only [inflateLoop]
      split
      · rfl
      · split
        · rfl
        · split
          · rfl
          · rename_i hrc hin hend
            have hlt := E.zlib.progress zs input 65536 (by decide) ⟨hrc, hend, hin⟩
            exact ih m _ _ _ (by omega) (by omega)

end LvdTerm.Vnc
