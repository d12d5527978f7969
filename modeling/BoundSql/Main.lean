import BoundSql.Command.Report

/-! The program: it writes a report to the standard output, and notices and complaints to the standard
error. A run that breaks off ends with the status of an abort. -/

def main (arguments : List String) : IO UInt32 := do
  let outcome := BoundSql.Command.run arguments
  IO.print outcome.output
  for n in outcome.notices do
    IO.eprint (BoundSql.Command.Host.sealed.display n)
  if let some text := outcome.complaint then IO.eprint text
  return (outcome.status.getD 134).toUInt32
