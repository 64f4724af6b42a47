import MessageU.ByteFields
import MessageU.SegmentedStream
import MessageU.GuardedRuns
import MessageU.StatementPrograms
import MessageU.LinearizedThreads
import MessageU.LetterBoxes
import MessageU.MailService
import MessageU.RecordLengths
import MessageU.ServerTables
import MessageU.RequestFormat
import MessageU.ResponseFormat
import MessageU.RequestHandling
import MessageU.ServerRuns
import MessageU.MailboxConservation
import MessageU.ServerWorker
import MessageU.RequestFragments
import MessageU.HandlerOutcomes
import MessageU.ErrorEffects
import MessageU.ResponseRoundTrip
import MessageU.ClientReception
import MessageU.StoreInvariant
import MessageU.ClientCredentials
import MessageU.ClientOperations
import MessageU.ContactListing
import MessageU.DisplayedNames
import MessageU.RegisteredContacts
import MessageU.ClientIdentity
import MessageU.ResponseMatching
import MessageU.FetchRoundTrip
import MessageU.FetchDelivery
import MessageU.ClientFragments
import MessageU.ResponseLimits
import MessageU.RegistrationOutcome
import MessageU.ConcurrentRegistrations
import MessageU.ConcurrentFetches
import MessageU.ConcurrentRequests
import MessageU.MailRefinement
import MessageU.MailboxIsolation
import MessageU.LettersInOrder
import MessageU.SharedConnection
import MessageU.MessageFormat
import MessageU.ContactMerge
import MessageU.RememberedKeys
import MessageU.TextLimits
import MessageU.CredentialsFile
import MessageU.ResponseGrammar
import MessageU.FailedRegistration
import MessageU.MessageIds
import MessageU.ReceiveBuffers
import MessageU.AppendingBuilders
import MessageU.BuilderReuse
import MessageU.EndingRuns
import MessageU.ClientMenu
import MessageU.ClientEnding
import MessageU.MessagingSystem
import MessageU.SystemRuns
import MessageU.SystemIdentity
import MessageU.SystemMail
import MessageU.SystemContacts
import MessageU.SystemDelivery
import MessageU.ExactDelivery
import MessageU.SystemListing
import MessageU.FetchScreen
import MessageU.SystemScreen
import MessageU.InterleavedSystem
import MessageU.MenuPasses
import MessageU.MenuRefinement
import MessageU.ServerRestarts
