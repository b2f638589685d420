import Smqueue.Lib.Runs
import Smqueue.Lib.Proofs.InputStreamProofs
import Smqueue.Lib.Proofs.AgendaProofs
import Smqueue.Proofs.ReadErrorsProofs
import Smqueue.Proofs.OrderProofs
import Smqueue.Proofs.SampleLibsProofs
import Smqueue.Proofs.TagSearchProofs
import Smqueue.Proofs.QueueFileProofs
import Smqueue.Proofs.AckedProofs
import Smqueue.Proofs.RoomProofs
import Smqueue.Proofs.RestartProofs
import Smqueue.Lib.Proofs.SheetProofs
import Smqueue.PduLayout
import Smqueue.Proofs.PduLayoutProofs
import Smqueue.Proofs.RelayProofs
import Smqueue.Proofs.UserDataProofs
import Smqueue.Proofs.SubmitProofs
import Smqueue.Proofs.RecodeProofs
import Smqueue.Proofs.TruncationProofs
import Smqueue.Proofs.ValidationProofs
import Smqueue.Proofs.QueueRecordsProofs
import Smqueue.Changes
import Smqueue.Lib.Proofs.PopulationProofs
import Smqueue.Proofs.ChangesProofs
import Smqueue.Proofs.DaemonChangesProofs
import Smqueue.Attempts
import Smqueue.Proofs.AttemptsProofs
import Smqueue.Finished
import Smqueue.Proofs.FinishedProofs
import Smqueue.Proofs.TreeEditsProofs
import Smqueue.Proofs.TagsProofs
import Smqueue.Proofs.CoherenceProofs
import Smqueue.SentContent
import Smqueue.Proofs.WireProofs
import Smqueue.Proofs.SentContentProofs
import Smqueue.SubmitLayout
import Smqueue.Proofs.SubmitLayoutProofs
import Smqueue.Transitions
import Smqueue.Proofs.TransitionsProofs
import Smqueue.Program
import Smqueue.Proofs.ProgramProofs
import Smqueue.Delays
import Smqueue.Proofs.DelaysProofs
import Smqueue.Proofs.SpacingProofs
import Smqueue.Proofs.RegistrationsProofs
import Smqueue.Proofs.ReprocessingProofs
import Smqueue.BounceLoops
import Smqueue.Proofs.BounceLoopsProofs
import Smqueue.Lib.Shell
import Smqueue.Gateways
import Smqueue.Lib.Proofs.ShellProofs
import Smqueue.Proofs.GatewaysProofs
import Smqueue.DigitArray
import Smqueue.Proofs.DigitArrayProofs
import Smqueue.HeaderedText
import Smqueue.Proofs.HeaderedTextProofs
import Smqueue.Lib.Calendar
import Smqueue.Lib.Proofs.CalendarProofs
import Smqueue.Proofs.TimeStampProofs
import Smqueue.Proofs.SetStateProofs
import Smqueue.Proofs.SmNetProofs
import Smqueue.Proofs.SmscProofs
import Smqueue.Repacked
import Smqueue.Proofs.RepackedProofs
import Smqueue.Proofs.ZapQueuedProofs
import Smqueue.PhoneNumbers
import Smqueue.Proofs.PhoneNumbersProofs
import Smqueue.ParseFailures
import Smqueue.Proofs.ParseFailuresProofs
import Smqueue.CpMessages
import Smqueue.Proofs.CpMessagesProofs
import Smqueue.Lib.Compaction
import Smqueue.SocketTable
import Smqueue.Proofs.SocketTableProofs
import Smqueue.Lifecycle
import Smqueue.Proofs.LifecycleProofs
import Smqueue.Answers
import Smqueue.Proofs.AnswersProofs
import Smqueue.Proofs.FrozenProofs
import Smqueue.WellFormed
import Smqueue.Proofs.WellFormedProofs
import Smqueue.Handshake
import Smqueue.Proofs.HandshakeProofs
import Smqueue.Polling
import Smqueue.Proofs.PollingProofs
import Smqueue.Datagrams
import Smqueue.Proofs.DatagramsProofs
import Smqueue.Routing
import Smqueue.Proofs.RoutingProofs
import Smqueue.CallNumbers
import Smqueue.Proofs.CallNumbersProofs
import Smqueue.Addresses
import Smqueue.Proofs.AddressesProofs
import Smqueue.Resumed
import Smqueue.Proofs.ResumedProofs
import Smqueue.Departures
import Smqueue.Proofs.DeparturesProofs
import Smqueue.Effort
import Smqueue.Proofs.EffortProofs
import Smqueue.Admission
import Smqueue.Proofs.AdmissionProofs
import Smqueue.Commands
import Smqueue.Proofs.CommandsProofs
import Smqueue.Shutdown
import Smqueue.Proofs.ShutdownProofs
