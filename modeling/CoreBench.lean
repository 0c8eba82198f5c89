import CoreBench.Cli.Sandbox
import CoreBench.Main
import CoreBench.Probe.Stimulus
import CoreBench.Proofs.Timetable
import CoreBench.Proofs.Stepping
import CoreBench.Proofs.Forecast
import CoreBench.Proofs.Tracking
import CoreBench.Proofs.ForecastRun
import CoreBench.Proofs.Recording
import CoreBench.Proofs.Histories
import CoreBench.Proofs.Timescale
import CoreBench.Proofs.Durations
import CoreBench.Proofs.Printing
import CoreBench.Proofs.Loading
import CoreBench.Proofs.BitSums
import CoreBench.Proofs.BusNumbers
import CoreBench.Proofs.BusTexts
import CoreBench.Proofs.Operands
import CoreBench.Proofs.Sampling
import CoreBench.Proofs.Verdicts
import CoreBench.Proofs.Budget
import CoreBench.Proofs.Cutting
import CoreBench.Proofs.Statements
import CoreBench.Proofs.Drafting
import CoreBench.Proofs.Accounting
import CoreBench.Proofs.Lines
import CoreBench.Proofs.Numerals
import CoreBench.Proofs.Rendering
import CoreBench.Proofs.Updates
import CoreBench.Proofs.Appending
import CoreBench.Proofs.Lockstep
import CoreBench.Proofs.Reuse
import CoreBench.Proofs.Relevance
import CoreBench.Proofs.Transcript
import CoreBench.Proofs.Replaying
import CoreBench.Proofs.Machine
import CoreBench.Proofs.Tallies
import CoreBench.Proofs.MachineRun
import CoreBench.Proofs.MachineSeries
import CoreBench.Proofs.Continuing
import CoreBench.Proofs.Horizon
import CoreBench.Proofs.Requests
import CoreBench.Proofs.Firing
import CoreBench.Proofs.Documents
import CoreBench.Proofs.Outcomes
import CoreBench.Proofs.Reporting
import CoreBench.Proofs.Coverage
import CoreBench.Proofs.Calendar
import CoreBench.Proofs.Agenda
import CoreBench.Proofs.Interrupts
import CoreBench.Proofs.Simultaneous
import CoreBench.Proofs.Refusals
import CoreBench.Proofs.Tokens
import CoreBench.Proofs.Renumbering
import CoreBench.Proofs.Layouts
import CoreBench.Proofs.Prolonging
import CoreBench.Proofs.DumpWords
import CoreBench.Proofs.DumpReading
import CoreBench.Proofs.Timeline
import CoreBench.Proofs.Freshness
import CoreBench.Proofs.LineBreaks
import CoreBench.Proofs.Directives
import CoreBench.Proofs.Grammar
import CoreBench.Proofs.Brackets
import CoreBench.Proofs.Trimming
import CoreBench.Proofs.Definitions
import CoreBench.Proofs.Naming
import CoreBench.Proofs.Resolving
import CoreBench.Proofs.Overrides
import CoreBench.Proofs.Assembly
import CoreBench.Proofs.Images
import CoreBench.Proofs.Occurrences
import CoreBench.Proofs.Filling
import CoreBench.Proofs.RegisterPaths
