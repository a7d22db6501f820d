import Fluxion.Session

/-! # The command line

With arguments, they are one line to answer. Without, every line of standard input is answered.
-/

namespace Fluxion

/-- Everything that a stream still holds. -/
partial def readAll (stream : IO.FS.Stream) (bytes : ByteArray) : IO ByteArray := do
  let chunk ← stream.read 65536
  if chunk.isEmpty then
    return bytes
  else
    readAll stream (bytes ++ chunk)

end Fluxion

def main (args : List String) : IO UInt32 := do
  let input ←
    if args.isEmpty then
      Fluxion.readAll (← IO.getStdin) ByteArray.empty
    else
      pure ByteArray.empty
  let session := Fluxion.Session.run args input
  IO.print session.output
  return UInt32.ofNat session.exitCode
