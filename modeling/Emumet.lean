import Emumet.LibTable
import Emumet.LibRuns
import Emumet.LibFallible
import Emumet.LibSession
import Emumet.LibLines
import Emumet.LibTailing
import Emumet.LibProjection
import Emumet.LibPaging
import Emumet.LibBase64
import Emumet.LibChase
import Emumet.LibListing
import Emumet.LibExchange
import Emumet.LibRelation
import Emumet.KernelEvent
import Emumet.KernelAccount
import Emumet.KernelProfile
import Emumet.KernelRelation
import Emumet.KernelActivity
import Emumet.KernelEventJson
import Emumet.KernelReplay
import Emumet.DriverTables
import Emumet.DriverAccountRow
import Emumet.DriverEventStore
import Emumet.DriverConcurrency
import Emumet.DriverReadModel
import Emumet.DriverRelations
import Emumet.DriverFederation
import Emumet.DriverSignatureParser
import Emumet.DriverCavage
import Emumet.DriverRepository
import Emumet.DriverVisibility
import Emumet.ProjectorBatch
import Emumet.ProjectorAccount
import Emumet.ProjectorProfile
import Emumet.ProjectorCoverage
import Emumet.ProjectorRows
import Emumet.ProjectorConvergence
import Emumet.ProjectorDeactivation
import Emumet.ProjectorExpiry
import Emumet.ServiceAccount
import Emumet.ServiceAccountDetail
import Emumet.ServiceAccountListing
import Emumet.ServiceStreams
import Emumet.ServiceModeration
import Emumet.ServiceRemoteActor
import Emumet.ServiceBlock
import Emumet.ServiceFollow
import Emumet.ServiceInbox
import Emumet.ServiceRelations
import Emumet.ServiceInboxFrame
import Emumet.ServiceExclusion
import Emumet.ServiceApproval
import Emumet.ServiceProfileRace
import Emumet.DriverVerifier
import Emumet.RouteInbox
import Emumet.RouteAuthenticity
import Emumet.ProjectorDependents
import Emumet.ProjectorDependentRows
import Emumet.ServiceUndo
import Emumet.ServiceFollowFaults
import Emumet.LibProcess
import Emumet.RouteLocalTarget
import Emumet.RouteLogin
import Emumet.ProjectorOwnerLink
import Emumet.ServiceLocalTarget
import Emumet.ServiceRelationLists
import Emumet.ServiceOwnership
import Emumet.ServiceFollowRemoval
import Emumet.KernelReplayClock
import Emumet.ServiceRelationIds
import Emumet.DriverSsrf
import Emumet.DriverFetch
import Emumet.RouteDiscovery
import Emumet.RouteJwks
import Emumet.ServiceInstanceRole
import Emumet.DriverSignatureRoundTrip
import Emumet.ServiceSentUndo
import Emumet.ServiceAccepts
import Emumet.ServicePaging
import Emumet.KernelCreationTime
import Emumet.ProjectorAppends
import Emumet.ProjectorRebuild
import Emumet.ProjectorRepoll
import Emumet.ProjectorRepollAccount
import Emumet.ProjectorResurrection
import Emumet.ProjectorAdoption
import Emumet.ServiceFetch
import Emumet.RouteFetch
import Emumet.RouteReadBack
import Emumet.ServiceActor
import Emumet.ServiceExchange
import Emumet.ServiceLinks
import Emumet.ServiceLinkCalls
import Emumet.ServiceLinkInbox
import Emumet.ServiceFederation
import Emumet.ServiceFederationActors
import Emumet.ServiceFederationViews
import Emumet.ServiceFederationDeliveries
import Emumet.ServiceFederationRuns
import Emumet.RouteProvenance
